import TypedStub.Proofs.Name
import TypedStub.Proofs.Outline.Cases
import TypedStub.Proofs.Outline.TypeTexts

/-! What an outline is annotated with, and what it imports.

Every part of an outline is found by reading its documented types. All of them can be read, the imports are
those that they need, and each annotation is one of them or needs no documentation.
-/

set_option autoImplicit false

namespace TypedStub

namespace Annotates

variable {refer : String → Reference} {owners first second : List String} {type : TypeTerm}

theorem mono (stands : Annotates refer owners first type) (larger : first ⊆ second) :
    Annotates refer owners second type := by
  induction stands with
  | undocumented known => exact .undocumented known
  | documented member parsed => exact .documented (larger member) parsed
  | optional _ ih => exact .optional ih

theorem left (stands : Annotates refer owners first type) :
    Annotates refer owners (first ++ second) type :=
  stands.mono (List.subset_append_left first second)

theorem right (stands : Annotates refer owners second type) :
    Annotates refer owners (first ++ second) type :=
  stands.mono (List.subset_append_right first second)

end Annotates

section
variable {α β γ : Type} {view : Viewpoint} {owners texts first second : List String} {path : String}

/-- A part of an outline that is found by reading some texts and `shows` some types. -/
structure Found.ReadsFrom (view : Viewpoint) (owners : List String) (shows : α → TypeTerm → Prop)
    (texts : List String) (found : Found α) : Prop where
  parses : ∀ text ∈ texts, ∃ raw, TypeTerm.parse text = .ok raw
  mem_imports : ∀ importPath, importPath ∈ found.imports ↔ ∃ text ∈ texts, view.Needs text importPath
  annotated : ∀ type, shows found.value type → Annotates view.refer owners texts type

namespace Found.ReadsFrom

variable {shows : α → TypeTerm → Prop} {shown : β → TypeTerm → Prop} {showing : γ → TypeTerm → Prop}
  {found : Found α} {earlier : Found α} {later : Found β}

theorem nothing (imports : found.imports = ∅)
    (known : ∀ type, shows found.value type → Undocumented owners type) :
    found.ReadsFrom view owners shows [] where
  parses _ member := by cases member
  mem_imports importPath := by simp [imports]
  annotated type isShown := .undocumented (known type isShown)

theorem map (reads : found.ReadsFrom view owners shows texts) {f : α → β}
    (annotated : ∀ type, shown (f found.value) type → shows found.value type) :
    (found.map f).ReadsFrom view owners shown texts where
  parses := reads.parses
  mem_imports := reads.mem_imports
  annotated type isShown := reads.annotated type (annotated type isShown)

theorem warn (reads : found.ReadsFrom view owners shows texts) (warning : Warning) :
    (found.warn warning).ReadsFrom view owners shows texts :=
  ⟨reads.parses, reads.mem_imports, reads.annotated⟩

theorem after (reads : earlier.ReadsFrom view owners shows first)
    (others : later.ReadsFrom view owners shown second) {f : β → γ}
    (annotated : ∀ type, showing (f later.value) type → Annotates view.refer owners (first ++ second) type) :
    (earlier.after (later.map f)).ReadsFrom view owners showing (first ++ second) where
  parses text member := (List.mem_append.1 member).elim (reads.parses text) (others.parses text)
  mem_imports importPath := by
    have both : importPath ∈ (earlier.after (later.map f)).imports ↔
        importPath ∈ earlier.imports ∨ importPath ∈ later.imports := NameSet.mem_union
    simp only [both, reads.mem_imports, others.mem_imports, List.mem_append, or_and_right, exists_or]
  annotated := annotated

/-- A member adds what it reads, also when it finds no place. -/
theorem place {add? : α → β → Option α} {entry : Found (Option β)}
    (reads : found.ReadsFrom view owners shows first)
    (others : entry.ReadsFrom view owners (fun item? type => ∃ item, item? = some item ∧ shown item type) second)
    (adds : ∀ item larger type, add? found.value item = some larger → shows larger type →
      shows found.value type ∨ shown item type) :
    (Found.place add? path found entry).ReadsFrom view owners shows (first ++ second) := by
  -- Wherever the entry goes, the imports are joined; only what is shown differs.
  have placed : ∀ value warnings,
      (∀ type, shows value type → Annotates view.refer owners (first ++ second) type) →
      (found.after ⟨value, entry.imports, warnings⟩).ReadsFrom view owners shows (first ++ second) := by
    intro value warnings annotated
    have warned : Found.ReadsFrom view owners (fun item? type => ∃ item, item? = some item ∧ shown item type)
        second ⟨entry.value, entry.imports, warnings⟩ :=
      ⟨others.parses, others.mem_imports, others.annotated⟩
    exact reads.after warned (f := fun _ => value) annotated
  have unchanged : ∀ type, shows found.value type → Annotates view.refer owners (first ++ second) type :=
    fun type isShown => (reads.annotated type isShown).left
  unfold Found.place
  split
  · exact placed _ _ unchanged
  · rename_i item has
    split
    · rename_i larger added
      apply placed
      intro type isShown
      rcases adds item larger type added isShown with isShown | isShown
      · exact unchanged type isShown
      · exact (others.annotated type ⟨item, has, isShown⟩).right
    · exact placed _ _ unchanged

end Found.ReadsFrom

end

section
variable {view : Viewpoint} {owners : List String} {path name text : String}

theorem readDocumentedType_reads {found : Found TypeTerm}
    (ran : readDocumentedType view path text = .ok found) : found.ReadsFrom view owners Eq [text] := by
  unfold readDocumentedType at ran
  rw [TypeTerm.read_eq] at ran
  cases parsed : TypeTerm.parse text with
  | error fault =>
    rw [parsed] at ran
    cases ran
  | ok raw =>
    rw [parsed] at ran
    cases ran
    constructor
    · intro other member
      cases List.mem_singleton.1 member
      exact ⟨raw, parsed⟩
    · intro importPath
      simp [Viewpoint.Needs, parsed, TypeTerm.mem_importsOf]
    · rintro _ rfl
      exact .documented (List.mem_singleton_self text) parsed

/-! ### Parameters -/

def Typing.Gives (typing : Typing) (type : TypeTerm) : Prop := ∃ name, typing.types.get? name = some type

theorem gives_ofShape {declared : List Parameter} {type : TypeTerm}
    (gives : (Typing.ofShape (Protocol.shape? name) declared).Gives type) : Undocumented owners type := by
  obtain ⟨parameter, found⟩ := gives
  have member := (List.of_mem_zip (NameMap.mem_of_get?_ofList found)).2
  obtain ⟨operand, listed, rfl⟩ := List.mem_map.1 member
  cases known : (Protocol.shape? name).bind ProtocolShape.operands? with
  | none =>
    rw [known] at listed
    cases listed
  | some operands =>
    rw [known] at listed
    exact .operand known listed

theorem addField_reads {declared : List Parameter} {field : ParameterField} {typing next : Found Typing}
    {texts : List String} (reads : typing.ReadsFrom view owners Typing.Gives texts)
    (ran : Typing.addField view path declared typing field = .ok next) :
    next.ReadsFrom view owners Typing.Gives (texts ++ TypeTexts.ofField declared field) := by
  unfold TypeTexts.ofField
  obtain ⟨isDeclared, type, read, rfl⟩ | ⟨notDeclared, rfl⟩ := addField_cases ran
  · have readsField := @readDocumentedType_reads _ owners _ _ _ read
    rw [if_pos isDeclared]
    refine reads.after readsField ?_
    -- The new type replaces an earlier one of the parameter and leaves the others.
    rintro other ⟨parameter, found⟩
    rw [NameMap.get?_insert] at found
    split at found
    · cases found
      exact (readsField.annotated _ rfl).right
    · exact (reads.annotated _ ⟨parameter, found⟩).left
  · rw [if_neg notDeclared, List.append_nil]
    exact reads.warn _

theorem outlineAll_imports {typing : Typing} (seen : List String) (parameters : List Parameter) :
    (typing.outlineAll path seen parameters).imports = ∅ := by
  induction parameters generalizing seen with
  | nil => rfl
  | cons parameter rest ih =>
    unfold Typing.outlineAll
    dsimp only
    split
    · exact ih _
    · split <;> exact ih _

/-- A parameter has a type that is given, and optional if it may be left out, or else it may be anything. -/
theorem mem_outlineAll {typing : Typing} {seen : List String} {parameters : List Parameter} {type : TypeTerm}
    (member : type ∈ (typing.outlineAll path seen parameters).value.filterMap ParameterOutline.type) :
    type = .any ∨ ∃ given, typing.Gives given ∧ (type = given ∨ type = given.optional) := by
  -- A parameter of a name that was seen is passed over, and a receiver has no type.
  induction parameters generalizing seen with
  | nil => cases member
  | cons parameter rest ih =>
    unfold Typing.outlineAll at member
    dsimp only at member
    split at member
    · exact ih member
    · split at member
      · rename_i typed
        rcases List.mem_cons.1 member with rfl | member
        · right
          split at typed
          · cases typed
          · obtain ⟨given, found, made⟩ := Option.map_eq_some_iff.1 typed
            refine ⟨given, ⟨parameter.name, found⟩, ?_⟩
            split at made
            · exact .inr made.symm
            · exact .inl made.symm
        · exact ih member
      · rcases List.mem_cons.1 member with rfl | member
        · exact .inl rfl
        · exact ih member

theorem outlineDeclared_reads {declared : List Parameter} {fields : List ParameterField} {typing : Found Typing}
    (ran : fields.foldlM (Typing.addField view path declared) { value := .ofShape (Protocol.shape? name) declared } =
      .ok typing) :
    (typing.after (typing.value.outlineAll path [] declared)).ReadsFrom view owners
      (fun parameters type => type ∈ parameters.filterMap ParameterOutline.type)
      (fields.flatMap (TypeTexts.ofField declared)) := by
  have starts : Found.ReadsFrom view owners Typing.Gives [] { value := .ofShape (Protocol.shape? name) declared } :=
    .nothing rfl fun type gives => gives_ofShape gives
  have typed := Outlining.foldlM_ok (Found.ReadsFrom view owners Typing.Gives) (TypeTexts.ofField declared)
    (fun _ _ _ _ _ reads ran => addField_reads reads ran) starts ran
  rw [List.nil_append] at typed
  have listed : (typing.value.outlineAll path [] declared).ReadsFrom view owners (fun _ _ => False) [] :=
    .nothing (outlineAll_imports _ _) fun _ isShown => isShown.elim
  rw [← List.append_nil (List.flatMap _ fields)]
  refine typed.after listed (f := id) ?_
  rw [List.append_nil]
  intro type member
  rcases mem_outlineAll member with rfl | ⟨given, gives, rfl | rfl⟩
  · exact .undocumented .any
  · exact typed.annotated _ gives
  · exact (typed.annotated given gives).optional

theorem undocumented_undeclaredParameters {kind : CallableKind} {type : TypeTerm}
    (member : type ∈ (undeclaredParameters name kind (Protocol.shape? name)).filterMap ParameterOutline.type) :
    Undocumented owners type := by
  have receiver : ∀ receivers : List String,
      (receivers.map fun receiver => ({ name := receiver, type := none } : ParameterOutline)).filterMap
        ParameterOutline.type = [] := by
    intro receivers
    simp [List.filterMap_map]
  unfold undeclaredParameters at member
  dsimp only at member
  split at member
  · rename_i operands bound
    rw [List.filterMap_append, receiver, List.nil_append] at member
    obtain ⟨parameter, listed, typed⟩ := List.mem_filterMap.1 member
    obtain ⟨i, inRange, rfl⟩ := List.mem_mapIdx.1 listed
    cases typed
    exact .operand bound (List.getElem_mem inRange)
  · rw [List.filterMap_append, receiver, List.nil_append] at member
    have any : type = .any := by simpa using member
    exact any ▸ .any

theorem outlineParameters_reads {kind : CallableKind} {signature : Option Signature}
    {fields : List ParameterField} {found : Found (List ParameterOutline)}
    (ran : outlineParameters view path name kind signature fields (Protocol.shape? name) = .ok found) :
    found.ReadsFrom view owners (fun parameters type => type ∈ parameters.filterMap ParameterOutline.type)
      (TypeTexts.ofParameters name kind signature fields (Protocol.shape? name)) := by
  unfold TypeTexts.ofParameters
  obtain ⟨bare, rfl⟩ | ⟨told, rfl, rfl⟩ | ⟨told, declared, typing, known, folded, rfl⟩ := outlineParameters_cases ran
  · rw [if_pos bare]
    exact .nothing rfl fun _ member => by cases member
  · rw [if_neg told]
    exact .nothing rfl fun _ member => undocumented_undeclaredParameters member
  · obtain ⟨signature, rfl, rfl⟩ := Option.map_eq_some_iff.1 known
    rw [if_neg told]
    exact outlineDeclared_reads folded

/-! ### Members of a class -/

theorem outlineReturns_reads {kind : CallableKind} {owner : Option String} {returnTypes : List String}
    {found : Found (Option TypeTerm)} (known : ∀ name, owner = some name → name ∈ owners)
    (ran : outlineReturns view path name kind owner returnTypes (Protocol.shape? name) = .ok found) :
    found.ReadsFrom view owners (fun returns type => returns = some type)
      (TypeTexts.ofReturns name kind returnTypes (Protocol.shape? name)) := by
  unfold TypeTexts.ofReturns
  obtain ⟨bare, rfl⟩ | ⟨allocates, rfl⟩ | ⟨told, read⟩ := outlineReturns_cases ran
  · rw [if_pos (.inl bare)]
    exact .nothing rfl fun _ isShown => by cases isShown
  · rw [if_pos (.inr allocates)]
    refine .nothing rfl ?_
    rintro _ ⟨⟩
    cases owner with
    | none => exact .any
    | some name => exact .owner (known name rfl)
  · rw [if_neg (not_or.2 told)]
    rcases read with ⟨rfl, rfl⟩ | ⟨text, type, rfl, read, rfl⟩
    · refine .nothing rfl ?_
      rintro _ ⟨⟩
      cases result : (Protocol.shape? name).bind ProtocolShape.returns? with
      | none => exact .any
      | some returns => exact .result result
    · exact (readDocumentedType_reads read).map fun _ isShown => Option.some.inj isShown

theorem outlineCallable_reads {kind : CallableKind} {owner : Option String} {routine : Routine}
    {found : Found CallableOutline} (known : ∀ name, owner = some name → name ∈ owners)
    (ran : outlineCallable view path name kind owner routine = .ok found) :
    found.ReadsFrom view owners (fun item type => type ∈ item.annotations)
      (TypeTexts.ofCallable name kind owner routine) := by
  unfold TypeTexts.ofCallable
  dsimp only
  obtain ⟨-, ⟨isError, rfl⟩ | ⟨notError, parameters, returns, ranParameters, ranReturns, rfl⟩⟩ :=
    outlineCallable_cases ran
  · rw [if_pos isError]
    exact .nothing rfl fun _ member => by cases member
  · rw [if_neg notError]
    have readsParameters := @outlineParameters_reads _ owners _ _ _ _ _ _ ranParameters
    have readsReturns := outlineReturns_reads known ranReturns
    refine readsParameters.after readsReturns ?_
    intro type member
    rcases List.mem_append.1 member with member | member
    · exact (readsParameters.annotated type member).left
    · exact (readsReturns.annotated type (Option.mem_toList.1 member)).right

theorem attributeType_reads {owner : String} {returnTypes : List String} {found : Found TypeTerm}
    (ran : attributeType view path owner returnTypes = .ok found) :
    found.ReadsFrom view owners Eq (if isErrorType owner then [] else returnTypes) := by
  have any : Found.ReadsFrom view owners Eq [] { value := TypeTerm.any } :=
    .nothing rfl fun _ same => same ▸ .any
  obtain ⟨nothing, rfl⟩ | ⟨notError, type, rfl, read⟩ := attributeType_cases ran
  · have noTexts : (if isErrorType owner then [] else returnTypes) = [] := by
      rcases nothing with isError | noTypes
      · exact if_pos isError
      · rw [noTypes, ite_self]
    rwa [noTexts]
  · rw [if_neg notError]
    exact readDocumentedType_reads read

theorem outlineAttribute_reads {owner : String} {doc : Option String} {found : Found AttributeOutline}
    (ran : outlineAttribute view path owner name doc = .ok found) :
    found.ReadsFrom view owners (fun item type => item.type = type) (TypeTexts.ofAttribute owner doc) := by
  obtain ⟨-, type, typed, rfl⟩ := outlineAttribute_cases ran
  exact (attributeType_reads typed).map fun _ => id

theorem outlineConstant_reads {member : Member} {found : Found ConstantOutline}
    (ran : outlineConstant view path member = .ok found) :
    found.ReadsFrom view owners (fun item type => item.type = type) (TypeTexts.ofConstant member) := by
  unfold TypeTexts.ofConstant
  obtain ⟨isMatchArgs, rfl⟩ | ⟨different, type, read, rfl⟩ := outlineConstant_cases ran
  · rw [if_pos isMatchArgs]
    exact .nothing rfl fun _ same => same ▸ .textTuple
  · rw [if_neg different]
    exact (readDocumentedType_reads read).map fun _ => id

theorem outlineInRole_reads {owner : String} {member : Member} {role : Role} {found : Found ClassEntry}
    (known : owner ∈ owners) (ran : outlineInRole view path owner member role = .ok found) :
    found.ReadsFrom view owners (fun entry type => type ∈ entry.annotations)
      (TypeTexts.inRole owner member role) := by
  match role, ran with
  | .attribute, ran =>
    obtain ⟨item, outlined, rfl⟩ := Outlining.map_eq_ok.1 ran
    exact (outlineAttribute_reads outlined).map fun _ shown => (List.mem_singleton.1 shown).symm
  | .constant, ran =>
    obtain ⟨item, outlined, rfl⟩ := Outlining.map_eq_ok.1 ran
    exact (outlineConstant_reads outlined).map fun _ shown => (List.mem_singleton.1 shown).symm
  | .callable kind, ran =>
    obtain ⟨item, outlined, rfl⟩ := Outlining.map_eq_ok.1 ran
    have isOwner : ∀ name, some owner = some name → name ∈ owners := by
      rintro _ ⟨⟩
      exact known
    refine (outlineCallable_reads isOwner outlined).map ?_
    split <;> exact fun _ => id

theorem outlineMember_reads {owner : String} {member : Member} {found : Found (Option ClassEntry)}
    (known : owner ∈ owners) (ran : outlineMember view path owner member = .ok found) :
    found.ReadsFrom view owners (fun entry? type => ∃ entry, entry? = some entry ∧ type ∈ entry.annotations)
      (TypeTexts.ofMember owner member) := by
  unfold TypeTexts.ofMember
  obtain ⟨decided, rfl⟩ | ⟨decided, rfl⟩ | ⟨role, assumed, entry, decided, outlined, rfl⟩ := outlineMember_cases ran
  · rw [decided]
    exact .nothing rfl fun _ ⟨_, impossible, _⟩ => by cases impossible
  · rw [decided]
    exact .nothing rfl fun _ ⟨_, impossible, _⟩ => by cases impossible
  · rw [decided]
    have reads := outlineInRole_reads known outlined
    refine ⟨reads.parses, reads.mem_imports, ?_⟩
    rintro type ⟨_, ⟨⟩, shown⟩
    exact reads.annotated type shown

/-! ### Classes and modules -/

/-- An entry that finds a place brings its own annotations and no others. -/
theorem mem_annotations_add?_class {outline larger : ClassOutline} {entry : ClassEntry} {type : TypeTerm}
    (added : outline.add? entry = some larger) (member : type ∈ larger.annotations) :
    type ∈ outline.annotations ∨ type ∈ entry.annotations := by
  cases entry <;>
  · obtain ⟨items, appended, rfl⟩ := Option.map_eq_some_iff.1 added
    obtain ⟨-, rfl⟩ := appendNew?_eq_some_iff.1 appended
    simp only [ClassOutline.annotations, ClassEntry.annotations, List.map_append, List.flatMap_append,
      List.mem_append, List.map_singleton, List.flatMap_singleton] at member ⊢
    grind

theorem mem_annotations_add?_module {outline larger : ModuleOutline} {entry : ModuleEntry} {type : TypeTerm}
    (added : outline.add? entry = some larger) (member : type ∈ larger.annotations) :
    type ∈ outline.annotations ∨ type ∈ entry.annotations := by
  cases entry <;>
  · obtain ⟨items, appended, rfl⟩ := Option.map_eq_some_iff.1 added
    obtain ⟨-, rfl⟩ := appendNew?_eq_some_iff.1 appended
    simp only [ModuleOutline.annotations, ModuleEntry.annotations, List.flatMap_append, List.mem_append,
      List.flatMap_singleton] at member ⊢
    grind

theorem outlineClass_reads {doc : Option String} {members : List Member} {found : Found ClassOutline}
    (known : name ∈ owners) (ran : outlineClass view path name doc members = .ok found) :
    found.ReadsFrom view owners (fun item type => type ∈ item.annotations) (TypeTexts.ofClass name members) := by
  refine Outlining.foldlM_ok (Found.ReadsFrom view owners fun item type => type ∈ item.annotations)
    (TypeTexts.ofMember name) ?_ (.nothing rfl fun _ member => by cases member) ran
  intro texts outline member next _ reads ran
  obtain ⟨entry, outlined, rfl⟩ := Outlining.map_eq_ok.1 ran
  exact reads.place (outlineMember_reads known outlined) fun _ _ _ => mem_annotations_add?_class

theorem outlineRootMember_reads {member : Member} {found : Found (Option ModuleEntry)}
    (known : member.name ∈ owners) (ran : outlineRootMember view path member = .ok found) :
    found.ReadsFrom view owners (fun entry? type => ∃ entry, entry? = some entry ∧ type ∈ entry.annotations)
      (TypeTexts.ofRootMember member) := by
  unfold TypeTexts.ofRootMember
  obtain ⟨doc, members, item, is, outlined, rfl⟩ | ⟨routine, item, is, outlined, rfl⟩ | ⟨is, rfl⟩ :=
    outlineRootMember_cases ran
  · rw [is]
    refine (outlineClass_reads known outlined).map ?_
    rintro type ⟨_, ⟨⟩, shown⟩
    exact shown
  · rw [is]
    have noOwner : ∀ name, none = some name → name ∈ owners := fun _ owned => by cases owned
    refine (outlineCallable_reads noOwner outlined).map ?_
    rintro type ⟨_, ⟨⟩, shown⟩
    exact shown
  · rw [is]
    exact .nothing rfl fun _ ⟨_, impossible, _⟩ => by cases impossible

theorem addRootMember_reads {moduleName : String} {outline next : Found ModuleOutline} {member : Member}
    {texts : List String} (reads : outline.ReadsFrom view owners (fun item type => type ∈ item.annotations) texts)
    (known : member.name ∈ owners) (ran : addRootMember view moduleName outline member = .ok next) :
    next.ReadsFrom view owners (fun item type => type ∈ item.annotations)
      (texts ++ TypeTexts.ofRootMember member) := by
  obtain ⟨entry, outlined, rfl⟩ := Outlining.map_eq_ok.1 ran
  exact reads.place (outlineRootMember_reads known outlined) fun _ _ _ => mem_annotations_add?_module

theorem outline_header {names : List String} {mod : Module} {found : Found ModuleOutline}
    (ran : mod.outline view names = .ok found) :
    found.value.name = mod.name ∧ found.value.imports = found.imports := by
  obtain ⟨folded, membersRan, rfl⟩ := Module.outline_cases ran
  exact ⟨name_addRootMembers membersRan, rfl⟩

/-- An outline is annotated with what was read from the texts of the module, and imports what that needs. -/
theorem outline_reads {names : List String} {mod : Module} {found : Found ModuleOutline}
    (ran : mod.outline view names = .ok found) :
    found.ReadsFrom view mod.visibleNames (fun item type => type ∈ item.annotations) mod.typeTexts := by
  obtain ⟨folded, membersRan, rfl⟩ := Module.outline_cases ran
  have reads := Outlining.foldlM_ok
    (Found.ReadsFrom view mod.visibleNames fun item type => type ∈ item.annotations) TypeTexts.ofRootMember
    (fun _ _ _ _ visible reads ran => addRootMember_reads reads (List.mem_map_of_mem visible) ran)
    (.nothing rfl fun _ member => by cases member) membersRan
  refine ⟨reads.parses, reads.mem_imports, ?_⟩
  intro type member
  rcases List.mem_append.1 member with member | member
  · exact reads.annotated type (List.mem_append_left _ member)
  · -- The attributes of the module are typed by their values.
    obtain ⟨constant, listed, rfl⟩ := List.mem_map.1 member
    obtain ⟨name, -, made⟩ := List.mem_filterMap.1 listed
    obtain ⟨value, -, rfl⟩ := Option.map_eq_some_iff.1 made
    exact .undocumented (.stored value)

end

end TypedStub
