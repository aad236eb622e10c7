import TypedStub.Proofs.Name
import TypedStub.Proofs.Outline.ErrorTypes
import TypedStub.Proofs.Outline.TypeTexts
import TypedStub.Proofs.TypeTerm.Referring
import TypedStub.Stub

/-! What aliases act on.

An outline is made from the types that a module documents, and aliases are asked for nothing but the paths that these
types are written with. Two sets of aliases that agree on the written paths lead to the same stub.
-/

set_option autoImplicit false

namespace TypedStub

/-- Two viewpoints read the same from each of some texts. -/
def Viewpoint.Alike (view other : Viewpoint) (texts : List String) : Prop :=
  ∀ text ∈ texts, TypeTerm.read view.refer text = TypeTerm.read other.refer text

namespace Viewpoint.Alike

variable {view other : Viewpoint} {texts first second : List String}

theorem mono (alike : view.Alike other texts) (fewer : first ⊆ texts) : view.Alike other first :=
  fun text member => alike text (fewer member)

theorem left (alike : view.Alike other (first ++ second)) : view.Alike other first :=
  alike.mono (List.subset_append_left first second)

theorem right (alike : view.Alike other (first ++ second)) : view.Alike other second :=
  alike.mono (List.subset_append_right first second)

theorem of_mem_flatMap {α : Type} {f : α → List String} {items : List α} {item : α}
    (alike : view.Alike other (items.flatMap f)) (member : item ∈ items) : view.Alike other (f item) :=
  alike.mono fun _ inside => List.mem_flatMap_of_mem member inside

end Viewpoint.Alike

section
variable {view other : Viewpoint} {path name : String}

/-! ### Callables -/

theorem readDocumentedType_alike {text : String} (alike : view.Alike other [text]) :
    readDocumentedType view path text = readDocumentedType other path text := by
  unfold readDocumentedType
  rw [alike text (List.mem_singleton_self text)]

theorem addField_alike {declared : List Parameter} {field : ParameterField}
    (alike : view.Alike other (TypeTexts.ofField declared field)) (typing : Found Typing) :
    Typing.addField view path declared typing field = Typing.addField other path declared typing field := by
  unfold TypeTexts.ofField at alike
  unfold Typing.addField
  split at alike
  · rw [readDocumentedType_alike alike]
  · rename_i notDeclared
    rw [if_neg notDeclared, if_neg notDeclared]

theorem outlineParameters_alike {kind : CallableKind} {signature : Option Signature} {fields : List ParameterField}
    {shape : Option ProtocolShape}
    (alike : view.Alike other (TypeTexts.ofParameters name kind signature fields shape)) :
    outlineParameters view path name kind signature fields shape =
      outlineParameters other path name kind signature fields shape := by
  unfold TypeTexts.ofParameters at alike
  unfold outlineParameters
  split at alike
  · rename_i bare
    rw [if_pos bare, if_pos bare]
  · rename_i told
    rw [if_neg told, if_neg told]
    cases signature with
    | none => rfl
    | some signature =>
      unfold declaredParameters
      dsimp only at alike ⊢
      rw [Outlining.foldlM_congr_of_mem fun field listed => addField_alike (alike.of_mem_flatMap listed)]

theorem outlineReturns_alike {kind : CallableKind} {owner : Option String} {returnTypes : List String}
    {shape : Option ProtocolShape} (alike : view.Alike other (TypeTexts.ofReturns name kind returnTypes shape)) :
    outlineReturns view path name kind owner returnTypes shape =
      outlineReturns other path name kind owner returnTypes shape := by
  unfold TypeTexts.ofReturns at alike
  unfold outlineReturns
  by_cases bare : shape = some .bare
  · rw [if_pos bare, if_pos bare]
  by_cases allocates : kind = .constructor ∧ name = Protocol.allocator
  · rw [if_neg bare, if_neg bare, if_pos allocates, if_pos allocates]
  rw [if_neg (not_or.2 ⟨bare, allocates⟩)] at alike
  rw [if_neg bare, if_neg bare, if_neg allocates, if_neg allocates]
  match returnTypes with
  | [] | _ :: _ :: _ => rfl
  | [type] =>
    dsimp only
    rw [readDocumentedType_alike alike]

theorem outlineCallable_alike {kind : CallableKind} {owner : Option String} {routine : Routine}
    (alike : view.Alike other (TypeTexts.ofCallable name kind owner routine)) :
    outlineCallable view path name kind owner routine = outlineCallable other path name kind owner routine := by
  unfold TypeTexts.ofCallable at alike
  unfold outlineCallable
  dsimp only at alike ⊢
  split at alike
  · rename_i isError
    rw [if_pos isError, if_pos isError]
  · rw [outlineParameters_alike alike.left, outlineReturns_alike alike.right]

/-! ### Members of a class -/

theorem attributeType_alike {owner : String} {returnTypes : List String}
    (alike : view.Alike other (if isErrorType owner then [] else returnTypes)) :
    attributeType view path owner returnTypes = attributeType other path owner returnTypes := by
  unfold attributeType
  split at alike
  · rename_i isError
    rw [if_pos isError, if_pos isError]
  · rename_i notError
    rw [if_neg notError, if_neg notError]
    match returnTypes with
    | [] | _ :: _ :: _ => rfl
    | [type] => exact readDocumentedType_alike alike

theorem outlineAttribute_alike {owner : String} {doc : Option String}
    (alike : view.Alike other (TypeTexts.ofAttribute owner doc)) :
    outlineAttribute view path owner name doc = outlineAttribute other path owner name doc := by
  unfold outlineAttribute
  dsimp only
  rw [attributeType_alike alike]

theorem outlineConstant_alike {member : Member} (alike : view.Alike other (TypeTexts.ofConstant member)) :
    outlineConstant view path member = outlineConstant other path member := by
  unfold TypeTexts.ofConstant at alike
  unfold outlineConstant
  split at alike
  · rename_i isMatchArgs
    rw [if_pos isMatchArgs, if_pos isMatchArgs]
  · rw [readDocumentedType_alike alike]

theorem outlineInRole_alike {owner : String} {member : Member} {role : Role}
    (alike : view.Alike other (TypeTexts.inRole owner member role)) :
    outlineInRole view path owner member role = outlineInRole other path owner member role := by
  match role with
  | .attribute => exact congrArg (Except.map _) (outlineAttribute_alike alike)
  | .constant => exact congrArg (Except.map _) (outlineConstant_alike alike)
  | .callable kind => exact congrArg (Except.map _) (outlineCallable_alike alike)

theorem outlineMember_alike {owner : String} {member : Member}
    (alike : view.Alike other (TypeTexts.ofMember owner member)) :
    outlineMember view path owner member = outlineMember other path owner member := by
  unfold TypeTexts.ofMember at alike
  unfold outlineMember
  cases decided : member.verdict owner with
  | discarded | unsupported => rfl
  | shown role assumed =>
    rw [decided] at alike
    exact congrArg (Except.map _) (outlineInRole_alike alike)

/-! ### Classes and modules -/

theorem outlineClass_alike {doc : Option String} {members : List Member}
    (alike : view.Alike other (TypeTexts.ofClass name members)) :
    outlineClass view path name doc members = outlineClass other path name doc members := by
  refine Outlining.foldlM_congr_of_mem fun member visible outline => ?_
  unfold addClassMember
  dsimp only
  rw [outlineMember_alike (alike.of_mem_flatMap visible)]

theorem outlineRootMember_alike {member : Member} (alike : view.Alike other (TypeTexts.ofRootMember member)) :
    outlineRootMember view path member = outlineRootMember other path member := by
  unfold TypeTexts.ofRootMember at alike
  unfold outlineRootMember
  cases role : member.content.moduleRole with
  | classDef doc members =>
    rw [role] at alike
    exact congrArg (Except.map _) (outlineClass_alike alike)
  | function routine =>
    rw [role] at alike
    exact congrArg (Except.map _) (outlineCallable_alike alike)
  | unsupported => rfl

theorem outline_alike {mod : Module} (alike : view.Alike other mod.typeTexts) (names : List String) :
    mod.outline view names = mod.outline other names := by
  unfold Module.outline
  rw [Outlining.foldlM_congr_of_mem fun member visible outline => ?_]
  unfold addRootMember
  dsimp only
  rw [outlineRootMember_alike (alike.of_mem_flatMap visible)]

end

/-! ### What is written -/

def Documentation.types (text : Option String) : List String :=
  let doc := Documentation.ofText (text.getD "")
  doc.parameters.map ParameterField.type ++ doc.returnTypes

/-- The types that are written for a member of a class. The type of a value is that of the value at hand, and a class
is a value of type `type`. -/
def Content.writtenTypes : Content → List String
  | .routine callable => Documentation.types callable.doc
  | .property doc => Documentation.types doc
  | .value typeName _ => [typeName]
  | .classDef .. => ["type"]
  | .absent => []

/-- The types that are written for a member of a module: for a callable, or for the members of a class. -/
def Member.writtenTypes (member : Member) : List String :=
  match member.content with
  | .classDef _ members => members.flatMap fun inner => inner.content.writtenTypes
  | .routine callable => Documentation.types callable.doc
  | .property _ | .value .. | .absent => []

namespace Module

def writtenTypes (mod : Module) : List String := mod.members.flatMap Member.writtenTypes

def writtenPaths (mod : Module) : List String := mod.writtenTypes.flatMap TypeTerm.writtenPaths

end Module

theorem Content.types_propertyDoc_subset (content : Content) :
    Documentation.types content.propertyDoc ⊆ content.writtenTypes := by
  cases content with
  | property doc => exact List.Subset.refl _
  | classDef | routine | value | absent => exact List.nil_subset _

theorem Content.types_routine?_subset (content : Content) :
    Documentation.types (content.routine?.getD {}).doc ⊆ content.writtenTypes := by
  cases content with
  | routine callable => exact List.Subset.refl _
  | classDef | property | value | absent => exact List.nil_subset _

namespace TypeTexts

variable {name owner : String} {member : Member}

theorem ofParameters_subset {kind : CallableKind} {signature : Option Signature} {fields : List ParameterField}
    {shape : Option ProtocolShape} :
    ofParameters name kind signature fields shape ⊆ fields.map ParameterField.type := by
  unfold ofParameters
  split
  · exact List.nil_subset _
  · cases signature with
    | none => exact List.nil_subset _
    | some signature =>
      intro text member
      obtain ⟨field, listed, member⟩ := List.mem_flatMap.1 member
      unfold ofField at member
      split at member
      · exact List.mem_singleton.1 member ▸ List.mem_map_of_mem listed
      · cases member

theorem ofCallable_subset {kind : CallableKind} {owner : Option String} {routine : Routine} :
    ofCallable name kind owner routine ⊆ Documentation.types routine.doc := by
  unfold ofCallable
  dsimp only
  split
  · exact List.nil_subset _
  · refine List.append_subset.2 ⟨fun text member => List.mem_append_left _ (ofParameters_subset member), ?_⟩
    intro text member
    unfold ofReturns at member
    split at member
    · cases member
    · exact List.mem_append_right _ member

theorem ofAttribute_subset {doc : Option String} : ofAttribute owner doc ⊆ Documentation.types doc := by
  unfold ofAttribute
  split
  · exact List.nil_subset _
  · exact List.subset_append_right _ _

/-- What is shown as a constant is a value or a class, unless it is the list that patterns match on. -/
theorem ofConstant_subset {assumed : Bool} (decided : member.verdict owner = .shown .constant assumed) :
    ofConstant member ⊆ member.content.writtenTypes := by
  unfold ofConstant
  split
  · exact List.nil_subset _
  rename_i different
  obtain ⟨name, memberOwner, content⟩ := member
  cases content with
  | value | classDef => exact List.Subset.refl _
  | routine callable =>
    have documented : (Content.routine callable).IsDocumented := trivial
    exact absurd rfl (Member.role_of_isDocumented documented decided)
  | property doc =>
    have documented : (Content.property doc).IsDocumented := trivial
    exact absurd rfl (Member.role_of_isDocumented documented decided)
  | absent =>
    unfold Member.verdict at decided
    dsimp only at decided different
    rw [if_neg different] at decided
    repeat' split at decided
    all_goals cases decided

theorem inRole_subset {role : Role} {assumed : Bool} (decided : member.verdict owner = .shown role assumed) :
    inRole owner member role ⊆ member.content.writtenTypes := by
  match role with
  | .constant => exact ofConstant_subset decided
  | .attribute => exact fun _ read => member.content.types_propertyDoc_subset (ofAttribute_subset read)
  | .callable kind => exact fun _ read => member.content.types_routine?_subset (ofCallable_subset read)

theorem ofMember_subset : ofMember owner member ⊆ member.content.writtenTypes := by
  unfold ofMember
  split
  · exact List.nil_subset _
  · exact List.nil_subset _
  · rename_i decided
    exact inRole_subset decided

theorem ofClass_subset {members : List Member} :
    ofClass name members ⊆ members.flatMap fun inner => inner.content.writtenTypes := by
  intro text member
  obtain ⟨inner, visible, read⟩ := List.mem_flatMap.1 member
  exact List.mem_flatMap_of_mem (List.mem_of_mem_filter visible) (ofMember_subset read)

theorem ofRootMember_subset : ofRootMember member ⊆ member.writtenTypes := by
  unfold ofRootMember Member.writtenTypes
  cases member.content with
  | classDef doc members => exact ofClass_subset
  | routine callable => exact ofCallable_subset
  | property | value | absent => exact List.nil_subset _

end TypeTexts

/-- What an outline is made from is written in the module. -/
theorem Module.typeTexts_subset (mod : Module) : mod.typeTexts ⊆ mod.writtenTypes := by
  intro text member
  obtain ⟨inner, visible, read⟩ := List.mem_flatMap.1 member
  exact List.mem_flatMap_of_mem (List.mem_of_mem_filter visible) (TypeTexts.ofRootMember_subset read)

/-! ### Aliases -/

/-- An alias that is set comes before a built-in one of its name. -/
theorem Aliases.get?_builtin (name : String) : builtin.get? name = NameMap.find name builtinEntries.reverse :=
  NameMap.get?_ofList builtinEntries name

theorem Aliases.get?_builtin_eq_none {name : String} (unlisted : ¬ name ∈ builtinEntries.map Prod.fst) :
    builtin.get? name = none := by
  cases found : builtin.get? name with
  | none => rfl
  | some path => exact absurd (List.mem_map_of_mem (NameMap.mem_of_get?_ofList found)) unlisted

theorem Settings.aliases_of_no_types {settings : Settings} (noTypes : settings.types = ∅) :
    settings.aliases = Aliases.builtin := by
  unfold Settings.aliases
  rw [noTypes]
  exact List.foldl_nil

theorem Settings.get?_aliases (settings : Settings) (name : String) :
    settings.aliases.get? name = (settings.types.get? name).or (Aliases.builtin.get? name) :=
  NameMap.get?_insertAll_entries _ _ _

section
variable {first second : Aliases} {moduleName : String}

theorem Viewpoint.refer_congr {path : String} (same : first.get? path = second.get? path) :
    refer ⟨first, moduleName⟩ path = refer ⟨second, moduleName⟩ path := by
  unfold refer Aliases.expand
  dsimp only
  rw [same]
  rfl

/-- Aliases that agree on the written paths read the same from a text. -/
theorem read_of_agree {text : String}
    (agree : ∀ path ∈ TypeTerm.writtenPaths text, first.get? path = second.get? path) :
    TypeTerm.read (Viewpoint.refer ⟨first, moduleName⟩) text =
      TypeTerm.read (Viewpoint.refer ⟨second, moduleName⟩) text :=
  TypeTerm.read_congr fun path written => Viewpoint.refer_congr (agree path written)

theorem Viewpoint.alike_of_agree {texts : List String}
    (agree : ∀ path ∈ texts.flatMap TypeTerm.writtenPaths, first.get? path = second.get? path) :
    Alike ⟨first, moduleName⟩ ⟨second, moduleName⟩ texts :=
  fun _ member => read_of_agree fun _ written => agree _ (List.mem_flatMap_of_mem member written)

end

/-- Aliases that agree on the written paths of a module outline it in the same way. -/
theorem Module.outline_of_agree (mod : Module) {first : Aliases} (second : Aliases) (names : List String)
    (agree : ∀ path ∈ mod.writtenPaths, first.get? path = second.get? path) :
    mod.outline ⟨first, mod.name⟩ names = mod.outline ⟨second, mod.name⟩ names :=
  outline_alike ((Viewpoint.alike_of_agree agree).mono mod.typeTexts_subset) names

theorem Module.outline_of_unaliased (mod : Module) (names paths : List String) (written : mod.writtenPaths = paths)
    (unaliased : ∀ path ∈ paths, ¬ path ∈ Aliases.builtinEntries.map Prod.fst) :
    mod.outline ⟨.builtin, mod.name⟩ names = mod.outline ⟨∅, mod.name⟩ names :=
  mod.outline_of_agree ∅ names fun path member =>
    (Aliases.get?_builtin_eq_none (unaliased path (written ▸ member))).trans (NameMap.get?_empty path).symm

def Settings.withAlias (settings : Settings) (name path : String) : Settings :=
  { settings with types := settings.types.insert name path }

theorem Settings.get?_aliases_withAlias (settings : Settings) {name path other : String} (different : other ≠ name) :
    (settings.withAlias name path).aliases.get? other = settings.aliases.get? other := by
  rw [get?_aliases, get?_aliases, withAlias, NameMap.get?_insert, if_neg different]

theorem Settings.generate_of_outline {settings : Settings} {mod : Module} {found : Found ModuleOutline}
    (ran : mod.outline ⟨settings.aliases, mod.name⟩ settings.metadata = .ok found) :
    settings.generate mod = .ok ⟨Stub.text (Stub.ofOutline found.value), found.warnings⟩ := by
  rw [generate, ran]
  rfl

/-- Aliases act on the paths that a module writes, and on these as a whole. Settings that agree on the written paths
generate the same stub with the same warnings, or fail in the same way. An alias that is set comes before a built-in
one, and it makes no difference to a type that is written without it. -/
theorem aliases_act_on_written_paths :
    (∀ (first second : Settings) (mod : Module), first.metadata = second.metadata →
      (∀ path ∈ mod.writtenPaths, first.aliases.get? path = second.aliases.get? path) →
      first.generate mod = second.generate mod) ∧
    (∀ (settings : Settings) (name : String),
      settings.aliases.get? name = (settings.types.get? name).or (Aliases.builtin.get? name)) ∧
    ∀ (settings : Settings) (name path moduleName text : String), name ∉ TypeTerm.writtenPaths text →
      TypeTerm.read (Viewpoint.refer ⟨(settings.withAlias name path).aliases, moduleName⟩) text =
        TypeTerm.read (Viewpoint.refer ⟨settings.aliases, moduleName⟩) text := by
  refine ⟨?_, Settings.get?_aliases, ?_⟩
  · intro first second mod metadata agree
    unfold Settings.generate
    rw [mod.outline_of_agree second.aliases _ agree, metadata]
  · intro settings name path moduleName text unwritten
    refine read_of_agree fun other written => settings.get?_aliases_withAlias ?_
    rintro rfl
    exact unwritten written

def sampling : Module where
  name := "pkg"
  doc := none
  attributes := ∅
  members := [⟨"sample", none, .routine { doc := some ":rtype: numpy.ndarray or MyEpoch", signature := some ⟨[]⟩ }⟩]

def samplingOutline : ModuleOutline where
  name := "pkg"
  functions := [⟨"sample", .function, [], some (.union [.name "numpy.ndarray", .name "MyEpoch"]), none⟩]
  imports := .ofList ["numpy"]

def partialNames : Settings where
  types := .ofList [("numpy", "cupy"), ("Epoch", "hifitime.Epoch")]

theorem sampling_ignores_partial_names :
    (∀ path ∈ sampling.writtenPaths, partialNames.aliases.get? path = ({} : Settings).aliases.get? path) ∧
    partialNames.aliases.get? "Epoch" = some "hifitime.Epoch" ∧
    partialNames.generate sampling = .ok
      { text := "from __future__ import annotations\nimport numpy\nimport typing\n\n" ++
          "def sample() -> numpy.ndarray | MyEpoch: ...\n"
        warnings := [] } ∧
    "numpy" ∉ TypeTerm.writtenPaths "numpy.ndarray" ∧
    TypeTerm.read (Viewpoint.refer ⟨(({} : Settings).withAlias "numpy" "cupy").aliases, "pkg"⟩) "numpy.ndarray" =
      TypeTerm.read (Viewpoint.refer ⟨({} : Settings).aliases, "pkg"⟩) "numpy.ndarray" := by
  obtain ⟨same, told, unmentioned⟩ := aliases_act_on_written_paths
  have written : sampling.writtenPaths = ["numpy.ndarray", "MyEpoch"] := by with_unfolding_all rfl
  have agree : ∀ path ∈ sampling.writtenPaths,
      partialNames.aliases.get? path = ({} : Settings).aliases.get? path := by
    have unset : ∀ path ∈ sampling.writtenPaths, partialNames.types.get? path = none := by
      rw [written]
      decide
    intro path member
    rw [told, told, unset path member]
    rfl
  -- To run on these two paths needs no more of the built-in aliases than the one that is written.
  have builtin : ∀ path ∈ sampling.writtenPaths,
      ({} : Settings).aliases.get? path = NameMap.get? (.ofList [("numpy.ndarray", "numpy.ndarray")]) path := by
    intro path member
    rw [told, Aliases.get?_builtin]
    revert path
    rw [written]
    decide
  have unwritten : "numpy" ∉ TypeTerm.writtenPaths "numpy.ndarray" := by
    have single : TypeTerm.writtenPaths "numpy.ndarray" = ["numpy.ndarray"] := by with_unfolding_all rfl
    rw [single]
    decide
  refine ⟨agree, ?_, ?_, unwritten, unmentioned {} "numpy" "cupy" "pkg" "numpy.ndarray" unwritten⟩
  · rw [told]
    rfl
  · have ran : sampling.outline ⟨({} : Settings).aliases, sampling.name⟩ ({} : Settings).metadata =
        .ok { value := samplingOutline, imports := samplingOutline.imports } := by
      rw [sampling.outline_of_agree _ _ builtin]
      with_unfolding_all rfl
    rw [same partialNames {} sampling rfl agree, Settings.generate_of_outline ran]
    with_unfolding_all rfl

end TypedStub
