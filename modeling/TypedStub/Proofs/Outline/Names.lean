import TypedStub.Proofs.Outline.Annotations
import TypedStub.Proofs.Outline.Receivers
import TypedStub.Proofs.Reference
import TypedStub.Proofs.Stub.Words

/-! The names and the paths in an outline.

The names are those of visible members and of their parameters, and those of the attributes that are shown. All paths
are parts of paths that documentation can name or that aliases stand for. A control character in an outline so comes
from a name, from an alias or from a text that is shown, and it has no other place to come from.
-/

set_option autoImplicit false

namespace TypedStub

open Text.Quoted (isControl)

/-! ### Names of modules and of outlines -/

def Content.parameterNames (content : Content) : List String :=
  ((content.routine?.bind Routine.signature).map fun signature => signature.parameters.map Parameter.name).getD []

def Member.ownNames (member : Member) : List String := member.name :: member.content.parameterNames

/-- The names of the visible members of a module and of its classes, with the names of their parameters. -/
def Module.memberNames (mod : Module) : List String :=
  (Scope.moduleBody.visible mod.members).flatMap fun member => member.ownNames ++
    match member.content with
    | .classDef _ members => (Scope.classBody.visible members).flatMap Member.ownNames
    | _ => []

def CallableOutline.names (item : CallableOutline) : List String :=
  item.name :: item.parameters.map ParameterOutline.name

def ClassOutline.names (item : ClassOutline) : List String :=
  item.name :: item.attributes.map AttributeOutline.name
    ++ (item.methods ++ item.protocolMethods).flatMap CallableOutline.names
    ++ item.constants.map ConstantOutline.name

def ModuleOutline.names (outline : ModuleOutline) : List String :=
  outline.classes.flatMap ClassOutline.names
    ++ outline.functions.flatMap CallableOutline.names
    ++ outline.metadata.map ConstantOutline.name

namespace Module

variable {mod : Module} {member inner : Member} {c : Char}

theorem heldBy_visible (visible : member ∈ Scope.moduleBody.visible mod.members) (held : HeldBy c member.ownNames) :
    HeldBy c mod.memberNames :=
  heldBy_flatMap.2 ⟨member, visible, heldBy_append.2 (.inl held)⟩

theorem HasClassMember.heldBy {className : String} (has : mod.HasClassMember className inner)
    (held : HeldBy c inner.ownNames) : HeldBy c mod.memberNames := by
  obtain ⟨outer, visible, -, doc, members, content, inside⟩ := has
  refine heldBy_flatMap.2 ⟨outer, visible, heldBy_append.2 (.inr ?_)⟩
  rw [content]
  exact heldBy_flatMap.2 ⟨inner, inside, held⟩

end Module

section
variable {c : Char} (control : isControl c = true) {view : Viewpoint} {path name : String} {kind : CallableKind}
include control

/-! ### Names of parameters -/

theorem not_mem_receiver {receiver : String} (implicit : implicitReceiver? name kind = some receiver) :
    ¬ c ∈ receiver.toList := by
  have known : receiver = "self" ∨ receiver = "cls" := by
    cases kind <;> simp only [implicitReceiver?, Option.some.injEq, reduceCtorEq] at implicit
    · split at implicit <;> cases implicit <;> simp
    all_goals simp [← implicit]
  rcases known with rfl | rfl <;> exact Text.not_mem_of_isControl control (by decide)

theorem not_heldBy_undeclaredParameters (shape : Option ProtocolShape) :
    ¬ HeldBy c ((undeclaredParameters name kind shape).map ParameterOutline.name) := by
  have receiver : ∀ item ∈ (implicitReceiver? name kind).toList, ¬ c ∈ item.toList := by
    intro item member
    exact not_mem_receiver control (Option.mem_toList.1 member)
  -- Operands are named by their number, all other implicit names are fixed.
  have operand : ∀ i : Nat, ¬ c ∈ ("arg" ++ toString i).toList := by
    intro i
    refine Text.not_mem_of_isControl control ?_
    intro mark member
    rw [String.toList_append] at member
    rcases List.mem_append.1 member with letter | digit
    · exact (by decide : Text.IsPlain "arg".toList) mark letter
    · -- The number of an operand has nothing but digits.
      have isDigit : mark.isDigit = true := Decimal.isDigit_of_mem_toDigits (Nat.toList_repr ▸ digit)
      exact Text.isControl_of_isAlphanum (by simp [Char.isAlphanum, isDigit])
  unfold undeclaredParameters
  rintro ⟨shown, listed, held⟩
  obtain ⟨parameter, member, rfl⟩ := List.mem_map.1 listed
  dsimp only at member
  split at member
  · rcases List.mem_append.1 member with first | later
    · obtain ⟨item, isReceiver, rfl⟩ := List.mem_map.1 first
      exact receiver item isReceiver held
    · obtain ⟨i, inRange, rfl⟩ := List.mem_mapIdx.1 later
      exact operand i held
  · rcases List.mem_append.1 member with first | later
    · obtain ⟨item, isReceiver, rfl⟩ := List.mem_map.1 first
      exact receiver item isReceiver held
    · rcases List.mem_pair.1 later with rfl | rfl <;>
        exact Text.not_mem_of_isControl control (by decide) held

theorem outlineParameters_names {signature : Option Signature} {fields : List ParameterField}
    {shape : Option ProtocolShape} {found : Found (List ParameterOutline)}
    (ran : outlineParameters view path name kind signature fields shape = .ok found)
    (held : HeldBy c (found.value.map ParameterOutline.name)) :
    HeldBy c ((signature.map fun signature => signature.parameters.map Parameter.name).getD []) := by
  obtain ⟨-, rfl⟩ | ⟨-, -, rfl⟩ | ⟨-, declared, typing, isDeclared, -, rfl⟩ := outlineParameters_cases ran
  · exact absurd held (by simp)
  · exact absurd held (not_heldBy_undeclaredParameters control shape)
  · obtain ⟨signature, rfl, rfl⟩ := Option.map_eq_some_iff.1 isDeclared
    change HeldBy c ((typing.value.outlineAll path [] (signature.withReceiver name kind)).value.map _) at held
    rw [outlineAll_names] at held
    change HeldBy c (signature.parameters.map Parameter.name)
    unfold Signature.withReceiver at held
    split at held
    · rename_i receiver implicit
      split at held
      · rw [List.map_cons, heldBy_cons] at held
        exact held.resolve_left (not_mem_receiver control implicit)
      · exact held
    · exact held

theorem outlineCallable_names {owner : Option String} {routine : Routine} {made : Found CallableOutline}
    (ran : outlineCallable view path name kind owner routine = .ok made) (held : HeldBy c made.value.names) :
    c ∈ name.toList ∨
      HeldBy c ((routine.signature.map fun signature => signature.parameters.map Parameter.name).getD []) := by
  obtain ⟨-, ⟨-, rfl⟩ | ⟨-, parameters, returns, ranParameters, -, rfl⟩⟩ := outlineCallable_cases ran
  · exact .inl (by simpa [CallableOutline.names] using held)
  · rcases heldBy_cons.1 held with inName | inParameters
    · exact .inl inName
    · exact .inr (outlineParameters_names control ranParameters inParameters)

/-! ### Names of classes and modules -/

variable {names : List String} {mod : Module} {found : Found ModuleOutline}

theorem heldBy_callableNames (ran : mod.outline view names = .ok found) {item : ClassOutline}
    (listed : item ∈ found.value.classes) {method : CallableOutline}
    (inside : method ∈ item.methods ++ item.protocolMethods) (held : HeldBy c method.names) :
    HeldBy c mod.memberNames := by
  obtain ⟨member, has, -, -, made, outlined, rfl⟩ := exists_callable ran listed inside
  refine has.heldBy (heldBy_cons.2 ((outlineCallable_names control outlined held).imp_right ?_))
  intro inSignature
  unfold Content.parameterNames
  cases found : member.content.routine? with
  | none =>
    rw [found] at inSignature
    exact absurd inSignature (by simp)
  | some routine =>
    rw [found] at inSignature
    exact inSignature

theorem heldBy_classNames (ran : mod.outline view names = .ok found) {item : ClassOutline}
    (listed : item ∈ found.value.classes) (held : HeldBy c item.names) : HeldBy c mod.memberNames := by
  have entryNames : ∀ place, HeldBy c ((item.entries place).map ClassEntry.name) → HeldBy c mod.memberNames := by
    intro place inEntries
    obtain ⟨shown, listedName, inName⟩ := inEntries
    obtain ⟨entry, inside, rfl⟩ := List.mem_map.1 listedName
    obtain ⟨member, has, named, -⟩ := exists_classMember ran listed inside
    exact has.heldBy (heldBy_cons.2 (.inl (named ▸ inName)))
  simp only [ClassOutline.names, List.cons_append, heldBy_cons, heldBy_append, heldBy_flatMap] at held
  rcases held with inName | (inAttributes | ⟨method, inside, inMethod⟩) | inConstants
  · obtain ⟨outer, visible, named, -⟩ := exists_class ran listed
    exact Module.heldBy_visible visible (heldBy_cons.2 (.inl (named ▸ inName)))
  · apply entryNames .attributes
    simpa [ClassOutline.entries, Function.comp_def, ClassEntry.name] using inAttributes
  · exact heldBy_callableNames control ran listed inside inMethod
  · apply entryNames .constants
    simpa [ClassOutline.entries, Function.comp_def, ClassEntry.name] using inConstants

/-- A control character in a name that is shown stands in the name of a member, of a parameter or of an attribute. -/
theorem heldBy_outlineNames (ran : mod.outline view names = .ok found) (held : HeldBy c found.value.names) :
    HeldBy c mod.memberNames ∨ HeldBy c names := by
  simp only [ModuleOutline.names, heldBy_append, heldBy_flatMap] at held
  rcases held with (⟨item, listed, inClass⟩ | ⟨callable, listed, inFunction⟩) | inMetadata
  · exact .inl (heldBy_classNames control ran listed inClass)
  · obtain ⟨member, visible, named, routine, content, made, outlined, rfl⟩ := exists_function ran listed
    refine .inl (Module.heldBy_visible visible (heldBy_cons.2 ?_))
    have own := outlineCallable_names control outlined inFunction
    rwa [named, Content.parameterNames, content]
  · -- Metadata is shown under the names that are asked for.
    obtain ⟨folded, -, rfl⟩ := Module.outline_cases ran
    obtain ⟨shown, listed, inName⟩ := inMetadata
    obtain ⟨constant, isConstant, rfl⟩ := List.mem_map.1 listed
    obtain ⟨name, isName, made⟩ := List.mem_filterMap.1 isConstant
    obtain ⟨value, -, rfl⟩ := Option.map_eq_some_iff.1 made
    exact .inr ⟨name, isName, inName⟩

end

/-! ### Paths -/

namespace Viewpoint

variable {view : Viewpoint} {path reference importPath : String} {c : Char}

theorem mem_of_mem_reference (held : c ∈ (view.referFull path).text.toList) : c ∈ path.toList := by
  rcases view.text_referFull path with whole | ⟨container, -, parts⟩
  · rwa [whole] at held
  · rw [parts, Dotted.toList_dotted]
    exact List.mem_append_right _ (List.mem_cons_of_mem _ held)

/-- What is imported for a reference to a path begins the path. -/
theorem mem_of_mem_importPath (refers : view.referFull path = .imported reference importPath)
    (held : c ∈ importPath.toList) : c ∈ path.toList := by
  cases imports_of_referFull refers with
  | inner segment =>
    rw [Dotted.toList_dotted]
    exact List.mem_append_left _ held
  | sibling outside =>
    rcases Dotted.head_eq_or_dotted reference with alone | ⟨rest, parts⟩
    · rwa [alone] at held
    · rw [parts, ← Dotted.dotted_assoc, Dotted.toList_dotted]
      exact List.mem_append_left _ held
  | elsewhere segment outside =>
    rw [Dotted.toList_dotted]
    exact List.mem_append_left _ held

end Viewpoint

theorem TypeTerm.heldBy_mapPaths {c : Char} {f : String → String} (type : TypeTerm)
    (held : HeldBy c (type.mapPaths f).paths) : ∃ path ∈ type.paths, c ∈ (f path).toList := by
  rw [paths_mapPaths, heldBy_flatMap] at held
  obtain ⟨path, member, own, isOwn, inPath⟩ := held
  rw [eq_of_mem_pathOf isOwn] at inPath
  exact ⟨path, member, inPath⟩

theorem TypeTerm.IsWrittenPath.not_mem {c : Char} {path : String} (written : IsWrittenPath path)
    (control : isControl c = true) : ¬ c ∈ path.toList := by
  refine Text.not_mem_of_isControl control fun mark inPath => ?_
  have isPathChar := written.characters mark inPath
  simp only [Token.isPathChar, Bool.or_eq_true, decide_eq_true_eq] at isPathChar
  rcases isPathChar with (plain | rfl) | rfl
  · exact Text.isControl_of_isAlphanum plain
  · decide
  · decide

section
variable {c : Char} (control : isControl c = true) {view : Viewpoint}
  (plain : ∀ name path, view.aliases.get? name = some path → ¬ c ∈ path.toList)
include control

theorem not_mem_readPath {text path : String} {raw : TypeTerm} (parsed : TypeTerm.parse text = .ok raw)
    (member : path ∈ raw.paths) : ¬ c ∈ path.toList :=
  ((TypeTerm.isCanonical_of_parse parsed).isWrittenPath path member).not_mem control

/-- The types that need no documentation have their paths from the language, but for the class of an allocator. -/
theorem heldBy_undocumented {owners : List String} {type : TypeTerm} (known : Undocumented owners type)
    (held : HeldBy c type.paths) : HeldBy c owners := by
  have single : ∀ name : String, HeldBy c (TypeTerm.name name).paths → c ∈ name.toList := by
    rintro name ⟨path, member, inPath⟩
    rwa [TypeTerm.eq_of_mem_pathOf member] at inPath
  have plainNames : ∀ name ∈ knownNames, Text.IsPlain name.toList := by decide
  have plainTuple : ∀ path ∈ TypeTerm.textTuple.paths, Text.IsPlain path.toList := by decide
  obtain rfl | ⟨name, isKnown, rfl⟩ | ⟨name, member, rfl⟩ := known.cases
  · obtain ⟨path, member, inPath⟩ := held
    exact absurd inPath (Text.not_mem_of_isControl control (plainTuple path member))
  · exact absurd (single name held) (Text.not_mem_of_isControl control (plainNames name isKnown))
  · exact ⟨name, member, single name held⟩

include plain

theorem not_mem_expand {text path : String} {raw : TypeTerm} (parsed : TypeTerm.parse text = .ok raw)
    (member : path ∈ raw.paths) : ¬ c ∈ (view.aliases.expand path).toList := by
  unfold Aliases.expand
  cases found : view.aliases.get? path with
  | none => exact not_mem_readPath control parsed member
  | some full => exact plain path full found

theorem heldBy_annotation {owners texts : List String} {type : TypeTerm}
    (annotates : Annotates view.refer owners texts type) (held : HeldBy c type.paths) : HeldBy c owners := by
  induction annotates with
  | undocumented known => exact heldBy_undocumented control known held
  | documented member parsed =>
    obtain ⟨path, inRaw, inPath⟩ := TypeTerm.heldBy_mapPaths _ held
    exact absurd (Viewpoint.mem_of_mem_reference inPath) (not_mem_expand control plain parsed inRaw)
  | optional _ ih =>
    simp only [TypeTerm.optional, TypeTerm.paths, TypeTerm.pathsAll, heldBy_append, heldBy_nil, or_false] at held
    rcases held with ⟨path, isPath, inPath⟩ | inner
    · rw [TypeTerm.eq_of_mem_pathOf isPath] at inPath
      exact absurd inPath (Text.not_mem_of_isControl control (by decide))
    · exact ih inner

variable {names : List String} {mod : Module} {found : Found ModuleOutline}

/-- The annotations have control characters from the names of classes only. -/
theorem heldBy_annotations (ran : mod.outline view names = .ok found)
    (held : HeldBy c (found.value.annotations.flatMap TypeTerm.paths)) : HeldBy c mod.memberNames := by
  obtain ⟨type, member, inType⟩ := heldBy_flatMap.1 held
  obtain ⟨name, isName, inName⟩ := heldBy_annotation control plain ((outline_reads ran).annotated type member) inType
  obtain ⟨outer, visible, rfl⟩ := List.mem_map.1 isName
  exact Module.heldBy_visible visible (heldBy_cons.2 (.inl inName))

theorem not_mem_import (ran : mod.outline view names = .ok found) {importPath : String}
    (imported : importPath ∈ found.value.imports) : ¬ c ∈ importPath.toList := by
  intro held
  rw [(outline_header ran).2, (outline_reads ran).mem_imports] at imported
  obtain ⟨text, -, raw, parsed, path, inRaw, needed⟩ := imported
  cases refers : view.refer path with
  | own _ | asWritten _ =>
    rw [refers] at needed
    cases needed
  | imported reference imported =>
    rw [refers] at needed
    cases needed
    exact not_mem_expand control plain parsed inRaw (Viewpoint.mem_of_mem_importPath refers held)

end

end TypedStub
