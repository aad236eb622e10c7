import TypedStub.Proofs.Outline.Origins
import TypedStub.Proofs.Outline.WrittenPaths
import TypedStub.Proofs.Reference
import TypedStub.Proofs.Stub.Imports
import TypedStub.Proofs.TypeTerm.Printing

/-! Reading the types of an outline back.

A type is read, its paths are referred to, and it may become optional. Each of these steps can take it out of the
language that it was read from: a path can be cut down to the word `or`, and an optional tuple is written like a
subscript of several types. All other types of an outline are read back from their documented forms.
-/

set_option autoImplicit false

namespace TypedStub

/-! ### The types that documentation or the language tells -/

def CallableOutline.toldTypes (item : CallableOutline) : List TypeTerm :=
  item.parameters.filterMap ParameterOutline.type ++
    if item.kind = .constructor ∧ item.name = Protocol.allocator then [] else item.returns.toList

def ClassOutline.toldTypes (item : ClassOutline) : List TypeTerm :=
  item.attributes.map AttributeOutline.type
    ++ (item.methods ++ item.protocolMethods).flatMap CallableOutline.toldTypes
    ++ item.constants.map ConstantOutline.type

def ModuleOutline.toldTypes (item : ModuleOutline) : List TypeTerm :=
  item.classes.flatMap ClassOutline.toldTypes
    ++ item.functions.flatMap CallableOutline.toldTypes
    ++ item.metadata.map ConstantOutline.type

/-- A type that the language tells, or one that a text documents, with each path referred to. -/
inductive IsTold (refer : String → Reference) : TypeTerm → Prop where
  | undocumented {type : TypeTerm} (known : Undocumented [] type) : IsTold refer type
  | documented {text : String} {raw : TypeTerm} (parsed : TypeTerm.parse text = .ok raw) :
      IsTold refer (raw.referred refer)

/-- A told type, which a parameter may have as an optional one. -/
inductive IsShown (refer : String → Reference) : TypeTerm → Prop where
  | told {type : TypeTerm} (isTold : IsTold refer type) : IsShown refer type
  | optional {type : TypeTerm} (isTold : IsTold refer type) : IsShown refer type.optional

section
variable {view : Viewpoint} {path name : String}

theorem isTold_of_read {text : String} {found : Found TypeTerm}
    (ran : readDocumentedType view path text = .ok found) : IsTold view.refer found.value := by
  unfold readDocumentedType at ran
  rw [TypeTerm.read_eq] at ran
  cases parsed : TypeTerm.parse text with
  | error fault =>
    rw [parsed] at ran
    cases ran
  | ok raw =>
    rw [parsed] at ran
    cases ran
    exact .documented parsed

theorem isTold_of_gives {declared : List Parameter} {fields : List ParameterField} {typing : Found Typing}
    (ran : fields.foldlM (Typing.addField view path declared) { value := .ofShape (Protocol.shape? name) declared } =
      .ok typing) : ∀ type, typing.value.Gives type → IsTold view.refer type := by
  refine Outlining.foldlM_preserves (fun found => ∀ type, found.value.Gives type → IsTold view.refer type) ?_
    (fun type gives => .undocumented (gives_ofShape gives)) ran
  intro typing field next _ known stepped type gives
  obtain ⟨-, made, read, rfl⟩ | ⟨-, rfl⟩ := addField_cases stepped
  · obtain ⟨parameter, given⟩ := gives
    change (typing.value.types.insert field.name made.value).get? parameter = some type at given
    rw [NameMap.get?_insert] at given
    split at given
    · cases given
      exact isTold_of_read read
    · exact known type ⟨parameter, given⟩
  · exact known type gives

theorem outlineParameters_shows {kind : CallableKind} {signature : Option Signature} {fields : List ParameterField}
    {found : Found (List ParameterOutline)}
    (ran : outlineParameters view path name kind signature fields (Protocol.shape? name) = .ok found) :
    ∀ type ∈ found.value.filterMap ParameterOutline.type, IsShown view.refer type := by
  intro type member
  obtain ⟨-, rfl⟩ | ⟨-, -, rfl⟩ | ⟨-, declared, typing, -, folded, rfl⟩ := outlineParameters_cases ran
  · cases member
  · exact .told (.undocumented (undocumented_undeclaredParameters member))
  · rcases mem_outlineAll member with rfl | ⟨given, gives, rfl | rfl⟩
    · exact .told (.undocumented .any)
    · exact .told (isTold_of_gives folded _ gives)
    · exact .optional (isTold_of_gives folded given gives)

theorem outlineReturns_told {kind : CallableKind} {owner : Option String} {returnTypes : List String}
    {found : Found (Option TypeTerm)} (made : ¬ (kind = .constructor ∧ name = Protocol.allocator))
    (ran : outlineReturns view path name kind owner returnTypes (Protocol.shape? name) = .ok found) :
    ∀ type, found.value = some type → IsTold view.refer type := by
  intro _ returned
  obtain ⟨-, rfl⟩ | ⟨allocates, -⟩ | ⟨-, ⟨-, rfl⟩ | ⟨text, type, -, read, rfl⟩⟩ := outlineReturns_cases ran
  · cases returned
  · exact absurd allocates made
  · cases returned
    cases known : (Protocol.shape? name).bind ProtocolShape.returns? with
    | none => exact .undocumented .any
    | some result => exact .undocumented (.result known)
  · cases returned
    exact isTold_of_read read

theorem outlineCallable_shows {kind : CallableKind} {owner : Option String} {routine : Routine}
    {found : Found CallableOutline} (ran : outlineCallable view path name kind owner routine = .ok found) :
    ∀ type ∈ found.value.toldTypes, IsShown view.refer type := by
  intro type member
  obtain ⟨-, ⟨-, rfl⟩ | ⟨-, parameters, returns, ranParameters, ranReturns, rfl⟩⟩ := outlineCallable_cases ran
  · simp [CallableOutline.toldTypes] at member
  · rcases List.mem_append.1 member with member | member
    · exact outlineParameters_shows ranParameters type member
    · split at member
      · cases member
      · rename_i made
        exact .told (outlineReturns_told made ranReturns type (Option.mem_toList.1 member))

theorem outlineAttribute_told {owner : String} {doc : Option String} {found : Found AttributeOutline}
    (ran : outlineAttribute view path owner name doc = .ok found) : IsTold view.refer found.value.type := by
  obtain ⟨-, type, typed, rfl⟩ := outlineAttribute_cases ran
  obtain ⟨-, rfl⟩ | ⟨-, text, -, read⟩ := attributeType_cases typed
  · exact .undocumented .any
  · exact isTold_of_read read

theorem outlineConstant_told {member : Member} {found : Found ConstantOutline}
    (ran : outlineConstant view path member = .ok found) : IsTold view.refer found.value.type := by
  obtain ⟨-, rfl⟩ | ⟨-, type, read, rfl⟩ := outlineConstant_cases ran
  · exact .undocumented .textTuple
  · exact isTold_of_read read

theorem outline_shows {names : List String} {mod : Module} {found : Found ModuleOutline}
    (ran : mod.outline view names = .ok found) : ∀ type ∈ found.value.toldTypes, IsShown view.refer type := by
  -- Each type that is told stands in an entry, and the entry was made from a member.
  have inClass : ∀ item ∈ found.value.classes, ∀ type ∈ item.toldTypes, IsShown view.refer type := by
    intro item listed type member
    rcases List.mem_append.1 member with member | member
    · rcases List.mem_append.1 member with member | member
      · obtain ⟨property, inside, rfl⟩ := List.mem_map.1 member
        obtain ⟨_, -, -, made, outlined, rfl⟩ := exists_property ran listed inside
        exact .told (outlineAttribute_told outlined)
      · obtain ⟨method, inside, member⟩ := List.mem_flatMap.1 member
        obtain ⟨_, -, -, -, made, outlined, rfl⟩ := exists_callable ran listed inside
        exact outlineCallable_shows outlined type member
    · obtain ⟨constant, inside, rfl⟩ := List.mem_map.1 member
      obtain ⟨_, -, -, made, outlined, rfl⟩ := exists_constant ran listed inside
      exact .told (outlineConstant_told outlined)
  intro type member
  rcases List.mem_append.1 member with member | member
  · rcases List.mem_append.1 member with member | member
    · obtain ⟨item, listed, member⟩ := List.mem_flatMap.1 member
      exact inClass item listed type member
    · obtain ⟨callable, listed, member⟩ := List.mem_flatMap.1 member
      obtain ⟨_, -, -, routine, -, made, outlined, rfl⟩ := exists_function ran listed
      exact outlineCallable_shows outlined type member
  · obtain ⟨constant, listed, rfl⟩ := List.mem_map.1 member
    obtain ⟨folded, -, rfl⟩ := Module.outline_cases ran
    obtain ⟨name, -, stored⟩ := List.mem_filterMap.1 listed
    obtain ⟨value, -, rfl⟩ := Option.map_eq_some_iff.1 stored
    exact .told (.undocumented (.stored value))

end

/-! ### Which of them are canonical -/

open TypeTerm (IsWrittenPath IsCanonical IsGroup)

section
variable {view : Viewpoint} (builtin : view.aliases = .builtin)
include builtin

theorem isWrittenPath_expand {path : String} (written : IsWrittenPath path) :
    IsWrittenPath (view.aliases.expand path) := by
  unfold Aliases.expand
  cases found : view.aliases.get? path with
  | none => exact written
  | some full => exact isWrittenPath_of_builtin (builtin ▸ found)

/-- A reference can be written as the path can, unless nothing but the word `or` is left of it. -/
theorem isWrittenPath_refer {path : String} (written : IsWrittenPath path) (notOr : (view.refer path).text ≠ "or") :
    IsWrittenPath (view.refer path).text := by
  have full := isWrittenPath_expand builtin written
  rcases view.text_referFull (view.aliases.expand path) with whole | ⟨container, -, parts⟩
  · exact (show (view.refer path).text = _ from whole) ▸ full
  · have segments : Dotted.IsPath (view.refer path).text :=
      (Dotted.isPath_dotted.1 (parts ▸ full.segments)).2
    refine ⟨segments.ne_empty, fun c member => full.characters c ?_, segments, notOr⟩
    rw [parts, Dotted.toList_dotted]
    exact List.mem_append_right _ (List.mem_cons_of_mem _ member)

theorem IsTold.isCanonical {type : TypeTerm} (told : IsTold view.refer type) (noWord : ¬ "or" ∈ type.paths) :
    IsCanonical type := by
  cases told with
  | undocumented known =>
    obtain rfl | ⟨name, isKnown, rfl⟩ | ⟨_, impossible, -⟩ := known.cases
    · refine .single (.single (.subscript (by decide) (List.cons_ne_nil _ _) ?_))
      exact List.forall_mem_cons.2 ⟨.single (.name (by decide)), List.forall_mem_singleton.2 (.single .ellipsis)⟩
    · have written : ∀ name ∈ knownNames, IsWrittenPath name := by decide
      exact .single (.single (.name (written name isKnown)))
    · cases impossible
  | documented parsed =>
    have canonical := TypeTerm.isCanonical_of_parse parsed
    refine canonical.mapPaths fun path member => isWrittenPath_refer builtin (canonical.isWrittenPath path member) ?_
    intro same
    rw [TypeTerm.referred, TypeTerm.paths_mapPaths] at noWord
    exact noWord (List.mem_flatMap.2 ⟨path, member, by simp [same, TypeTerm.pathOf]⟩)

end

theorem TypeTerm.isCanonical_optional_iff {type : TypeTerm} : IsCanonical type.optional ↔ IsGroup type := by
  unfold TypeTerm.optional
  constructor
  · intro canonical
    cases canonical with
    | single group =>
      cases group with
      | single alternative =>
        cases alternative with
        | subscript _ _ args => exact args type (List.mem_singleton_self type)
  · intro group
    exact .single (.single (.subscript (by decide) (List.cons_ne_nil _ _) (List.forall_mem_singleton.2 group)))

/-- A type of an outline is read back from its documented form, unless a path in it is the word `or` or it is an
optional tuple. -/
theorem parse_documentedForm_told {moduleName : String} {names : List String} {mod : Module}
    {found : Found ModuleOutline} (ran : mod.outline ⟨.builtin, moduleName⟩ names = .ok found) {type : TypeTerm}
    (member : type ∈ found.value.toldTypes) :
    TypeTerm.parse type.documentedForm = .ok type ↔
      ¬ "or" ∈ type.paths ∧ ∀ items, type ≠ .optional (.tuple items) := by
  rw [TypeTerm.parse_eq_self_iff]
  constructor
  · intro canonical
    refine ⟨fun word => (canonical.isWrittenPath "or" word).notOr rfl, ?_⟩
    rintro items rfl
    exact nomatch TypeTerm.isCanonical_optional_iff.1 canonical
  · rintro ⟨noWord, notTuple⟩
    cases outline_shows ran type member with
    | told isTold => exact isTold.isCanonical rfl noWord
    | @optional inner isTold =>
      have inside : ¬ "or" ∈ inner.paths := fun word =>
        noWord (List.mem_append_right _ (List.mem_append_left _ word))
      cases isTold.isCanonical rfl inside with
      | single group => exact TypeTerm.isCanonical_optional_iff.2 group
      | @tuple items _ _ => exact absurd rfl (notTuple items)

def placing : Module where
  name := "anise"
  doc := none
  attributes := ∅
  members := [⟨"place", none, .routine {
    doc := some ":type point: int, str, optional\n:type scale: float, optional\n:rtype: anise.or"
    signature := some ⟨[{ name := "point" }, { name := "scale" }]⟩ }⟩]

def placingShown : Found ModuleOutline where
  value := {
    name := "anise"
    functions := [{
      name := "place"
      kind := .function
      parameters := [{ name := "point", type := some (.optional (.tuple [.name "int", .name "str"])) },
        { name := "scale", type := some (.optional (.name "float")) }]
      returns := some (.name "or")
      doc := none }] }

theorem outline_placing : placing.outline ⟨.builtin, "anise"⟩ [] = .ok placingShown := by
  have written : placing.writtenPaths = ["int", "str", "float", "anise.or"] := by with_unfolding_all rfl
  refine (placing.outline_of_unaliased [] _ written (by decide)).trans ?_
  with_unfolding_all rfl

theorem scale_read_back :
    placing.outline ⟨.builtin, "anise"⟩ [] = .ok placingShown ∧
    TypeTerm.optional (.name "float") ∈ placingShown.value.toldTypes ∧
    TypeTerm.parse "typing.Optional[float]" = .ok (.optional (.name "float")) := by
  have member : TypeTerm.optional (.name "float") ∈ placingShown.value.toldTypes := by decide
  have notTuple : ∀ items, TypeTerm.optional (.name "float") ≠ .optional (.tuple items) := by
    intro items same
    cases same
  exact ⟨outline_placing, member, (parse_documentedForm_told outline_placing member).2 ⟨by decide, notTuple⟩⟩

/-- The optional tuple is read as the optional of two types, and the word `or` as no type. -/
theorem placing_not_read_back :
    placing.outline ⟨.builtin, "anise"⟩ [] = .ok placingShown ∧
    (TypeTerm.optional (.tuple [.name "int", .name "str"]) ∈ placingShown.value.toldTypes ∧
      TypeTerm.parse (TypeTerm.optional (.tuple [.name "int", .name "str"])).documentedForm =
        .ok (.subscript "typing.Optional" [.name "int", .name "str"])) ∧
    (TypeTerm.name "or" ∈ placingShown.value.toldTypes ∧
      ∀ type, TypeTerm.parse (TypeTerm.name "or").documentedForm ≠ .ok type) := by
  have rejected : (TypeTerm.parse (TypeTerm.name "or").documentedForm).toOption = none := by with_unfolding_all rfl
  refine ⟨outline_placing, ⟨by decide, by with_unfolding_all rfl⟩, by decide, fun type parsed => ?_⟩
  rw [parsed] at rejected
  cases rejected

end TypedStub
