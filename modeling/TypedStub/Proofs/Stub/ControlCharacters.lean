import TypedStub.Proofs.Outline.Names
import TypedStub.Proofs.Outline.WrittenPaths
import TypedStub.Proofs.Stub.Imports
import TypedStub.Stub

/-! Control characters in the text of a stub.

Names, types and values bring no control character into a stub, as long as the names of the module have none.
Docstrings keep those of the documentation: only backslashes and quotes are escaped in them.
-/

set_option autoImplicit false

namespace TypedStub

open Text.Quoted (isControl)

def ClassOutline.docs (item : ClassOutline) : List String :=
  item.doc.toList ++ item.attributes.flatMap (fun property => property.doc.toList)
    ++ (item.methods ++ item.protocolMethods).flatMap fun method => method.doc.toList

/-- The documentation texts that a stub shows. -/
def ModuleOutline.docs (outline : ModuleOutline) : List String :=
  outline.classes.flatMap ClassOutline.docs ++ outline.functions.flatMap fun callable => callable.doc.toList

namespace Stub

/-! ### Docstrings of an outline -/

theorem docstrings_ofCallable (item : CallableOutline) : (ofCallable item).docstrings = item.doc.toList := by
  unfold ofCallable
  cases item.doc <;> rfl

theorem docstrings_ofAttribute (item : AttributeOutline) : docstringsOfAll (ofAttribute item) = item.doc.toList := by
  unfold ofAttribute
  cases item.doc <;> rfl

theorem placeholder_if_empty {α : Type} (f : List Statement → α) (same : f [.ellipsis] = f []) (body : List Statement) :
    f (match body with
      | [] => [.ellipsis]
      | body => body) = f body := by
  cases body with
  | nil => exact same
  | cons statement rest => rfl

theorem docstrings_ofClass (item : ClassOutline) : (ofClass item).docstrings = item.docs := by
  have doc : docstringsOfAll (item.doc.map Statement.docstring).toList = item.doc.toList := by
    cases item.doc <;> rfl
  calc (ofClass item).docstrings
    _ = docstringsOfAll (classBody item) := placeholder_if_empty docstringsOfAll rfl (classBody item)
    _ = item.docs := by
      simp [classBody, ClassOutline.docs, docstringsOfAll_append, docstringsOfAll_map, docstringsOfAll_flatMap, doc,
        docstrings_ofAttribute, docstrings_ofCallable, ofConstant, Statement.docstrings]

theorem docstrings_imports (moduleName : String) (importPaths : NameSet) :
    docstringsOfAll (imports moduleName importPaths) = [] := by
  have one : ∀ path, (importOf moduleName path).docstrings = [] := by
    intro path
    unfold importOf
    split <;> rfl
  simp [imports, docstringsOfAll, docstringsOfAll_map, one, Statement.docstrings]

theorem docstrings_ofOutline (outline : ModuleOutline) : docstringsOfAll (ofOutline outline) = outline.docs := by
  simp [ofOutline, ModuleOutline.docs, docstringsOfAll_append, docstringsOfAll_map, docstrings_imports,
    docstrings_ofClass, docstrings_ofCallable, ofConstant, Statement.docstrings]

/-! ### Words of an outline -/

theorem words_ofCallable (item : CallableOutline) : (ofCallable item).words =
    item.name :: decorators item.kind ++ item.parameters.flatMap ParameterOutline.words ++
      (item.returns.map TypeTerm.paths).getD [] := by
  unfold ofCallable
  cases item.doc <;> exact List.append_nil _

theorem wordsOfAll_ofAttribute (item : AttributeOutline) :
    wordsOfAll (ofAttribute item) = item.name :: item.type.paths := by
  unfold ofAttribute
  cases item.doc <;> exact List.append_nil _

section
variable {c : Char} (control : isControl c = true)
include control

theorem heldBy_words_ofCallable (item : CallableOutline) :
    HeldBy c (ofCallable item).words ↔ HeldBy c item.names ∨ HeldBy c (item.annotations.flatMap TypeTerm.paths) := by
  have plain : ∀ kind, ∀ decorator ∈ decorators kind, Text.IsPlain decorator.toList := by
    intro kind
    cases kind <;> decide
  have decorators : ¬ HeldBy c (decorators item.kind) := fun ⟨decorator, member, held⟩ =>
    Text.not_mem_of_isControl control (plain item.kind decorator member) held
  have parameters : ∀ parameters : List ParameterOutline, HeldBy c (parameters.flatMap ParameterOutline.words) ↔
      HeldBy c (parameters.map ParameterOutline.name) ∨
        HeldBy c ((parameters.filterMap ParameterOutline.type).flatMap TypeTerm.paths) := by
    intro parameters
    induction parameters with
    | nil => simp
    | cons parameter rest ih =>
      rw [List.flatMap_cons, heldBy_append, ih]
      cases typed : parameter.type with
      | none => simp [ParameterOutline.words, typed, or_assoc]
      | some type =>
        simp only [ParameterOutline.words, typed, Option.map_some, Option.getD_some, List.map_cons,
          List.filterMap_cons_some typed, List.flatMap_cons, heldBy_cons, heldBy_append]
        grind
  have returns : HeldBy c ((item.returns.map TypeTerm.paths).getD []) ↔
      HeldBy c (item.returns.toList.flatMap TypeTerm.paths) := by
    cases item.returns <;> simp
  simp only [words_ofCallable, CallableOutline.names, CallableOutline.annotations, List.flatMap_append,
    List.cons_append, heldBy_cons, heldBy_append, decorators, parameters, returns, false_or]
  grind

theorem heldBy_words_ofClass (item : ClassOutline) :
    HeldBy c (ofClass item).words ↔ HeldBy c item.names ∨ HeldBy c (item.annotations.flatMap TypeTerm.paths) := by
  -- An empty class has a placeholder for its body, and that has no words.
  have words : (ofClass item).words = item.name :: [finalDecorator] ++ wordsOfAll (classBody item) :=
    congrArg ([item.name, finalDecorator] ++ ·) (placeholder_if_empty wordsOfAll rfl (classBody item))
  have doc : wordsOfAll (item.doc.map Statement.docstring).toList = [] := by
    cases item.doc <;> rfl
  have final : ¬ c ∈ finalDecorator.toList := Text.not_mem_of_isControl control (by decide)
  have callables : ∀ callables : List CallableOutline,
      HeldBy c (callables.flatMap fun item => (ofCallable item).words) ↔
        HeldBy c (callables.flatMap CallableOutline.names) ∨
          HeldBy c ((callables.flatMap CallableOutline.annotations).flatMap TypeTerm.paths) := by
    intro callables
    rw [List.flatMap_assoc]
    exact heldBy_flatMap_or (heldBy_words_ofCallable control)
  have typed : ∀ {α : Type} (items : List α) (name : α → String) (type : α → TypeTerm),
      HeldBy c (items.flatMap fun item => name item :: (type item).paths) ↔
        HeldBy c (items.map name) ∨ HeldBy c ((items.map type).flatMap TypeTerm.paths) := by
    intro α items name type
    rw [List.map_eq_flatMap, List.flatMap_map]
    exact heldBy_flatMap_or fun item => by simp
  simp only [words, classBody, ClassOutline.names, ClassOutline.annotations, wordsOfAll_append, wordsOfAll_map,
    wordsOfAll_flatMap, doc, wordsOfAll_ofAttribute, ofConstant, Statement.words, List.cons_append, List.nil_append,
    List.flatMap_append, heldBy_cons, heldBy_append, callables, typed, final, false_or]
  grind

/-- Nothing is written of an import but the path of the module, or its parts. -/
theorem heldBy_words_imports {moduleName : String} {importPaths : NameSet}
    (held : HeldBy c (wordsOfAll (imports moduleName importPaths))) : ∃ path ∈ importPaths, c ∈ path.toList := by
  have one : ∀ path, HeldBy c (importOf moduleName path).words → c ∈ path.toList := by
    intro path held
    unfold importOf at held
    split at held
    · rename_i parent last _ split
      rw [(Dotted.splitLast?_eq_some_iff.1 split).1, Dotted.toList_dotted]
      simp only [Statement.words, heldBy_cons, heldBy_nil, or_false] at held
      rcases held with inParent | inLast
      · exact List.mem_append_left _ inParent
      · exact List.mem_append_right _ (List.mem_cons_of_mem _ inLast)
    · simpa [Statement.words] using held
  have future : ¬ HeldBy c (Statement.importFrom "__future__" ["annotations"]).words := by
    simp only [Statement.words, heldBy_cons, heldBy_nil, or_false, not_or]
    exact ⟨Text.not_mem_of_isControl control (by decide), Text.not_mem_of_isControl control (by decide)⟩
  simp only [imports, wordsOfAll, wordsOfAll_map, heldBy_append, future, false_or] at held
  obtain ⟨path, listed, inImport⟩ := heldBy_flatMap.1 held
  have inPath := one path inImport
  rcases NameSet.mem_insert.1 (List.mem_of_mem_filter listed) with rfl | imported
  · exact absurd inPath (Text.not_mem_of_isControl control (by decide))
  · exact ⟨path, imported, inPath⟩

/-- A control character in a word of the stub stands in a name, in an annotation or in the path of an import. -/
theorem heldBy_words_ofOutline {outline : ModuleOutline} (held : HeldBy c (wordsOfAll (ofOutline outline))) :
    (∃ path ∈ outline.imports, c ∈ path.toList) ∨ HeldBy c outline.names ∨
      HeldBy c (outline.annotations.flatMap TypeTerm.paths) := by
  have classes := @heldBy_flatMap_or c _ outline.classes _ _ _ (heldBy_words_ofClass control)
  have functions := @heldBy_flatMap_or c _ outline.functions _ _ _ (heldBy_words_ofCallable control)
  have metadata : HeldBy c (outline.metadata.flatMap fun item => (ofConstant item).words) ↔
      HeldBy c (outline.metadata.map ConstantOutline.name) ∨
        HeldBy c ((outline.metadata.map ConstantOutline.type).flatMap TypeTerm.paths) := by
    rw [List.map_eq_flatMap, List.flatMap_map]
    exact heldBy_flatMap_or fun item => by simp [ofConstant, Statement.words]
  simp only [ofOutline, wordsOfAll_append, wordsOfAll_map, heldBy_append, classes, functions, metadata] at held
  simp only [ModuleOutline.names, ModuleOutline.annotations, List.flatMap_append, List.flatMap_assoc, heldBy_append]
  rcases held with ((inImports | inClasses) | inFunctions) | inMetadata
  · exact .inl (heldBy_words_imports control inImports)
  · exact .inr (by grind)
  · exact .inr (by grind)
  · exact .inr (by grind)

/-! ### The text -/

theorem heldBy_documentLines (statements : List Statement) :
    HeldBy c (documentLines statements) ↔ AllHold statements c := by
  have separator : ∀ first second, ¬ HeldBy c (if sameGroup first second then [] else [""]) := by
    intro first second
    split <;> simp
  induction statements with
  | nil => simp [documentLines, AllHold]
  | cons statement rest ih =>
    cases rest with
    | nil =>
      rw [documentLines, Statement.heldBy_lines control]
      simp [AllHold]
    | cons next rest =>
      have both : AllHold (statement :: next :: rest) c ↔ statement.Holds c ∨ AllHold (next :: rest) c :=
        List.exists_mem_cons_iff _ _ _
      have later : HeldBy c (documentLines (next :: rest)) ↔ AllHold (next :: rest) c := ih
      rw [documentLines, heldBy_append, heldBy_append, Statement.heldBy_lines control, both, ← later]
      simp [separator]

theorem mem_text (notEnd : c ≠ '\n') (statements : List Statement) :
    c ∈ (text statements).toList ↔ AllHold statements c := by
  cases statements with
  | nil => simp [text, AllHold, notEnd]
  | cons statement rest =>
    change c ∈ (textOfLines (documentLines (statement :: rest))).toList ↔ _
    rw [← heldBy_documentLines control, toList_textOfLines]
    simp [HeldBy, notEnd]

end

end Stub

/-- If no name of the module and no alias has a control character, other than a line feed, then the text of the stub
has the character exactly if a documentation text that is shown has it. -/
theorem mem_generated_iff_mem_docs {c : Char} (control : isControl c = true) (notEnd : c ≠ '\n')
    {settings : Settings} {mod : Module} {generated : Generated}
    (aliases : ∀ name path, settings.aliases.get? name = some path → ¬ c ∈ path.toList)
    (metadata : ¬ HeldBy c settings.metadata) (names : ¬ HeldBy c mod.memberNames)
    (generates : settings.generate mod = .ok generated) :
    c ∈ generated.text.toList ↔ ∃ found,
      mod.outline ⟨settings.aliases, mod.name⟩ settings.metadata = .ok found ∧ HeldBy c found.value.docs := by
  obtain ⟨found, ran, returned⟩ := Outlining.bind_eq_ok.1 generates
  cases returned
  have words : ¬ HeldBy c (Stub.wordsOfAll (Stub.ofOutline found.value)) := by
    intro held
    rcases Stub.heldBy_words_ofOutline control held with ⟨path, imported, inPath⟩ | inNames | inTypes
    · exact not_mem_import control aliases ran imported inPath
    · exact (heldBy_outlineNames control ran inNames).elim names metadata
    · exact names (heldBy_annotations control aliases ran inTypes)
  calc c ∈ (Stub.text (Stub.ofOutline found.value)).toList
    _ ↔ Stub.AllHold (Stub.ofOutline found.value) c := Stub.mem_text control notEnd _
    _ ↔ HeldBy c found.value.docs := by rw [Stub.allHold_iff, Stub.docstrings_ofOutline]; simp [words, notEnd]
    _ ↔ ∃ found, mod.outline ⟨settings.aliases, mod.name⟩ settings.metadata = .ok found ∧
        HeldBy c found.value.docs := by simp [ran]

theorem not_mem_builtin {c : Char} (control : isControl c = true) {settings : Settings}
    (noTypes : settings.types = ∅) (name path : String) (found : settings.aliases.get? name = some path) :
    ¬ c ∈ path.toList := by
  rw [Settings.aliases_of_no_types noTypes] at found
  exact (isWrittenPath_of_builtin found).not_mem control

def unitDocumented : Module where
  name := "pkg"
  doc := none
  attributes := ∅
  members := [⟨"Unit", none, .classDef (some "a\x00b\rc") [⟨"size", none, .property (some ":return: a\rb")⟩]⟩]

def unitDocumentedText : String :=
  "from __future__ import annotations\nimport typing\n\n@typing.final\nclass Unit:\n" ++
    "    \"\"\"a\x00b\rc\"\"\"\n    size: typing.Any\n    \"\"\"a\rb\"\"\"\n"

set_option maxRecDepth 2000 in
theorem generate_unitDocumented :
    ({} : Settings).generate unitDocumented = .ok ⟨unitDocumentedText, []⟩ ∧
    '\r' ∈ unitDocumentedText.toList ∧ '\x00' ∈ unitDocumentedText.toList := by
  have written : unitDocumented.writtenPaths = [] := by with_unfolding_all rfl
  have ran : unitDocumented.outline ⟨({} : Settings).aliases, unitDocumented.name⟩ ({} : Settings).metadata = .ok {
      value := { name := "pkg", classes := [{
        name := "Unit", doc := some "a\x00b\rc", attributes := [⟨"size", .any, some "a\rb"⟩] }] } } := by
    rw [Settings.aliases_of_no_types rfl, unitDocumented.outline_of_unaliased _ [] written (List.forall_mem_nil _)]
    with_unfolding_all rfl
  rw [Settings.generate_of_outline ran]
  exact ⟨by with_unfolding_all rfl, by decide, by decide⟩

theorem unitDocumented_docs_hold_carriage_return :
    isControl '\r' = true ∧ '\r' ≠ '\n' ∧
    (∀ name path, ({} : Settings).aliases.get? name = some path → ¬ '\r' ∈ path.toList) ∧
    ¬ HeldBy '\r' ({} : Settings).metadata ∧ ¬ HeldBy '\r' unitDocumented.memberNames ∧
    ({} : Settings).generate unitDocumented = .ok ⟨unitDocumentedText, []⟩ ∧
    ∃ found, unitDocumented.outline ⟨({} : Settings).aliases, "pkg"⟩ ({} : Settings).metadata = .ok found ∧
      HeldBy '\r' found.value.docs := by
  have control : isControl '\r' = true := by decide
  have notEnd : '\r' ≠ '\n' := by decide
  have aliases := @not_mem_builtin '\r' control {} rfl
  have metadata : ¬ HeldBy '\r' ({} : Settings).metadata := by decide
  have names : ¬ HeldBy '\r' unitDocumented.memberNames := by decide
  obtain ⟨generates, holds, -⟩ := generate_unitDocumented
  have docs := (mem_generated_iff_mem_docs control notEnd aliases metadata names generates).1 holds
  exact ⟨control, notEnd, aliases, metadata, names, generates, docs⟩

/-- No name of the module has a control character, and its text has two of them besides line feeds. -/
theorem unitDocumented_text_holds_control_characters :
    (∀ name ∈ "pkg" :: unitDocumented.memberNames, Text.IsPlain name.toList) ∧
    ({} : Settings).generate unitDocumented = .ok ⟨unitDocumentedText, []⟩ ∧
    '\r' ∈ unitDocumentedText.toList ∧ '\x00' ∈ unitDocumentedText.toList :=
  ⟨by decide, generate_unitDocumented⟩

end TypedStub
