import TypedStub.Proofs.Outline.Cases
import TypedStub.Proofs.Outline.Census

/-! The account of an outline: its warnings and its entries tell what became of each visible member.

The warnings that arise while a callable, an attribute or a constant is outlined are about parameters alone. Where a
member belongs is told apart from these, when it is put into an outline.
-/

set_option autoImplicit false

namespace TypedStub

def Warning.IsAboutParameter (warning : Warning) : Prop :=
  warning.kind = .unresolvedParameter ∨ warning.kind = .unknownParameter

-- No description ends with another one, so the end of the text is that of one kind alone.
theorem Warning.kind_eq_of_text_eq {first second : Warning} (same : first.text = second.text) :
    first.kind = second.kind := by
  have ending : ∀ warning : Warning, (" (" ++ warning.kind.description ++ ")").toList <:+ warning.text.toList := by
    intro warning
    simp only [Warning.text, String.append_assoc, String.toList_append]
    exact ⟨warning.path.toList ++ (": ".toList ++ warning.message.toList), by simp⟩
  have alone : ∀ kind other : WarningKind, (" (" ++ kind.description ++ ")").toList <:+
      (" (" ++ other.description ++ ")").toList → kind = other := by
    intro kind other
    cases kind <;> cases other <;> decide
  rcases List.suffix_or_suffix_of_suffix (ending first) (same ▸ ending second) with shorter | shorter
  · exact alone _ _ shorter
  · exact (alone _ _ shorter).symm

/-- What is found has warnings about parameters only. -/
def Found.WarnsOfParameters {α : Type} (found : Found α) : Prop :=
  ∀ warning ∈ found.warnings, warning.IsAboutParameter

namespace Found.WarnsOfParameters

variable {α β : Type} {earlier : Found α} {later : Found β}

theorem silent (noWarnings : earlier.warnings = []) : earlier.WarnsOfParameters := by
  intro warning member
  rw [noWarnings] at member
  cases member

theorem after (first : earlier.WarnsOfParameters) (second : later.WarnsOfParameters) :
    (earlier.after later).WarnsOfParameters := by
  intro warning member
  exact (List.mem_append.1 member).elim (first warning) (second warning)

theorem map (warns : earlier.WarnsOfParameters) (f : α → β) : (earlier.map f).WarnsOfParameters := warns

end Found.WarnsOfParameters

section
variable {view : Viewpoint} {path name : String}

theorem readDocumentedType_silent {text : String} {found : Found TypeTerm}
    (ran : readDocumentedType view path text = .ok found) : found.warnings = [] := by
  unfold readDocumentedType at ran
  split at ran <;> cases ran
  rfl

theorem addField_warns {declared : List Parameter} {field : ParameterField} {typing next : Found Typing}
    (warns : typing.WarnsOfParameters) (ran : Typing.addField view path declared typing field = .ok next) :
    next.WarnsOfParameters := by
  obtain ⟨-, type, read, rfl⟩ | ⟨-, rfl⟩ := addField_cases ran
  · exact warns.after (.silent (readDocumentedType_silent read))
  · intro warning member
    rcases List.mem_append.1 member with member | member
    · exact warns warning member
    · cases List.mem_singleton.1 member
      exact .inr rfl

theorem outlineAll_warns {typing : Typing} (seen : List String) (parameters : List Parameter) :
    (typing.outlineAll path seen parameters).WarnsOfParameters := by
  induction parameters generalizing seen with
  | nil => exact .silent rfl
  | cons parameter rest ih =>
    unfold Typing.outlineAll
    dsimp only
    split
    · exact ih _
    · split
      · exact ih _
      · intro warning member
        rcases List.mem_cons.1 member with rfl | member
        · exact .inl rfl
        · exact ih _ warning member

theorem outlineParameters_warns {kind : CallableKind} {signature : Option Signature}
    {fields : List ParameterField} {shape : Option ProtocolShape} {found : Found (List ParameterOutline)}
    (ran : outlineParameters view path name kind signature fields shape = .ok found) : found.WarnsOfParameters := by
  obtain ⟨-, rfl⟩ | ⟨-, -, rfl⟩ | ⟨-, declared, typing, -, folded, rfl⟩ := outlineParameters_cases ran
  · exact .silent rfl
  · exact .silent rfl
  · have typed := Outlining.foldlM_preserves Found.WarnsOfParameters
      (fun _ _ _ _ warns ran => addField_warns warns ran) (.silent rfl) folded
    exact typed.after (outlineAll_warns _ _)

theorem outlineReturns_silent {kind : CallableKind} {owner : Option String} {returnTypes : List String}
    {shape : Option ProtocolShape} {found : Found (Option TypeTerm)}
    (ran : outlineReturns view path name kind owner returnTypes shape = .ok found) : found.warnings = [] := by
  obtain ⟨-, rfl⟩ | ⟨-, rfl⟩ | ⟨-, ⟨-, rfl⟩ | ⟨text, type, -, read, rfl⟩⟩ := outlineReturns_cases ran
  · rfl
  · rfl
  · rfl
  · exact readDocumentedType_silent read

theorem outlineCallable_warns {kind : CallableKind} {owner : Option String} {routine : Routine}
    {found : Found CallableOutline} (ran : outlineCallable view path name kind owner routine = .ok found) :
    found.WarnsOfParameters := by
  obtain ⟨-, ⟨-, rfl⟩ | ⟨-, parameters, returns, ranParameters, ranReturns, rfl⟩⟩ := outlineCallable_cases ran
  · exact .silent rfl
  · exact (outlineParameters_warns ranParameters).after (.silent (outlineReturns_silent ranReturns))

theorem outlineAttribute_silent {owner : String} {doc : Option String} {found : Found AttributeOutline}
    (ran : outlineAttribute view path owner name doc = .ok found) : found.warnings = [] := by
  obtain ⟨-, type, typed, rfl⟩ := outlineAttribute_cases ran
  obtain ⟨-, rfl⟩ | ⟨-, text, -, read⟩ := attributeType_cases typed
  · rfl
  · exact readDocumentedType_silent read

theorem outlineConstant_silent {member : Member} {found : Found ConstantOutline}
    (ran : outlineConstant view path member = .ok found) : found.warnings = [] := by
  obtain ⟨-, rfl⟩ | ⟨-, type, read, rfl⟩ := outlineConstant_cases ran
  · rfl
  · exact readDocumentedType_silent read

theorem outlineInRole_warns {owner : String} {member : Member} {role : Role} {found : Found ClassEntry}
    (ran : outlineInRole view path owner member role = .ok found) : found.WarnsOfParameters := by
  match role, ran with
  | .attribute, ran =>
    obtain ⟨item, outlined, rfl⟩ := Outlining.map_eq_ok.1 ran
    exact .silent (outlineAttribute_silent outlined)
  | .constant, ran =>
    obtain ⟨item, outlined, rfl⟩ := Outlining.map_eq_ok.1 ran
    exact .silent (outlineConstant_silent outlined)
  | .callable _, ran =>
    obtain ⟨item, outlined, rfl⟩ := Outlining.map_eq_ok.1 ran
    exact (outlineCallable_warns outlined).map _

end

/-! ### Every visible member is accounted for

A member that is shown becomes an entry of one list, and it is known by its name and its role alone which list
that is. The members of all classes are accounted for, also those of a class that comes too late for its name.
-/

section
variable {view : Viewpoint} {path name : String}

theorem outlineCallable_name {kind : CallableKind} {owner : Option String} {routine : Routine}
    {found : Found CallableOutline} (ran : outlineCallable view path name kind owner routine = .ok found) :
    found.value.name = name := by
  obtain ⟨-, ⟨-, rfl⟩ | ⟨-, parameters, returns, -, -, rfl⟩⟩ := outlineCallable_cases ran <;>
  rfl

theorem outlineAttribute_name {owner : String} {doc : Option String} {found : Found AttributeOutline}
    (ran : outlineAttribute view path owner name doc = .ok found) : found.value.name = name := by
  obtain ⟨-, type, -, rfl⟩ := outlineAttribute_cases ran
  rfl

theorem outlineConstant_name {member : Member} {found : Found ConstantOutline}
    (ran : outlineConstant view path member = .ok found) : found.value.name = member.name := by
  obtain ⟨-, rfl⟩ | ⟨-, type, -, rfl⟩ := outlineConstant_cases ran <;>
  rfl

theorem outlineInRole_entry {owner : String} {member : Member} {role : Role} {found : Found ClassEntry}
    (ran : outlineInRole view path owner member role = .ok found) :
    found.value.list = role.list ∧ found.value.name = member.name := by
  match role, ran with
  | .attribute, ran =>
    obtain ⟨item, outlined, rfl⟩ := Outlining.map_eq_ok.1 ran
    exact ⟨rfl, outlineAttribute_name outlined⟩
  | .constant, ran =>
    obtain ⟨item, outlined, rfl⟩ := Outlining.map_eq_ok.1 ran
    exact ⟨rfl, outlineConstant_name outlined⟩
  | .callable kind, ran =>
    obtain ⟨item, outlined, rfl⟩ := Outlining.map_eq_ok.1 ran
    have named := outlineCallable_name outlined
    by_cases isProtocol : kind = .protocol
    · simpa [Found.map, isProtocol, Role.list, ClassEntry.list, ClassEntry.name] using named
    · simpa [Found.map, isProtocol, Role.list, ClassEntry.list, ClassEntry.name] using named

theorem outlineClass_name {doc : Option String} {members : List Member} {found : Found ClassOutline}
    (ran : outlineClass view path name doc members = .ok found) : found.value.name = name := by
  refine Outlining.foldlM_preserves (fun outline => outline.value.name = name) ?_ rfl ran
  intro outline member next _ same ran
  obtain ⟨entry, -, rfl⟩ := Outlining.map_eq_ok.1 ran
  exact (ClassOutline.shelves.title_place _ outline entry).trans same

end

/-- The census of the members of a class. -/
def Census.ofClass (view : Viewpoint) (classPath className : String) :
    Census ClassOutline ClassEntry ClassList where
  toShelves := ClassOutline.shelves
  path member := classPath ++ "." ++ member.name
  fate member := member.fate className
  unsupported := Warning.unsupportedClassMember
  contribute member := outlineMember view (classPath ++ "." ++ member.name) className member
  kind_unsupported _ := rfl
  sound := by
    intro member found ran
    unfold Member.fate
    obtain ⟨decided, rfl⟩ | ⟨decided, rfl⟩ | ⟨role, assumed, entry, decided, outlined, rfl⟩ := outlineMember_cases ran
    · rw [decided]
    · rw [decided]
    · rw [decided]
      exact ⟨entry.value, rfl, outlineInRole_entry outlined⟩

/-- The census of the members of a module. -/
def Census.ofModule (view : Viewpoint) (moduleName : String) :
    Census ModuleOutline ModuleEntry ModuleList where
  toShelves := ModuleOutline.shelves
  path member := moduleName ++ "." ++ member.name
  fate := Member.rootFate
  unsupported := Warning.unsupportedRootMember
  contribute member := outlineRootMember view (moduleName ++ "." ++ member.name) member
  kind_unsupported _ := rfl
  sound := by
    intro member found ran
    unfold Member.rootFate
    obtain ⟨doc, members, item, role, outlined, rfl⟩ | ⟨routine, item, role, outlined, rfl⟩ | ⟨role, rfl⟩ :=
      outlineRootMember_cases ran
    · rw [role]
      exact ⟨_, rfl, rfl, outlineClass_name outlined⟩
    · rw [role]
      exact ⟨_, rfl, rfl, outlineCallable_name outlined⟩
    · rw [role]

/-- The members of a class have no warnings by themselves that say where they belong. -/
theorem count_ownWarnings {view : Viewpoint} {classPath className : String} {member : Member} {kind : WarningKind}
    (about : kind = .unsupportedMember ∨ kind = .duplicateMember) :
    Warning.count kind ((Census.ofClass view classPath className).ownWarnings member) = 0 := by
  refine List.countP_eq_zero.2 fun warning among same => ?_
  have same : warning.kind = kind := of_decide_eq_true same
  unfold Census.ownWarnings at among
  split at among
  · rename_i list found fate ran
    change outlineMember view _ className member = .ok found at ran
    change member.fate className = .listed list at fate
    unfold Member.fate at fate
    obtain ⟨decided, rfl⟩ | ⟨decided, rfl⟩ | ⟨role, assumed, entry, -, outlined, rfl⟩ := outlineMember_cases ran
    · rw [decided] at fate
      cases fate
    · rw [decided] at fate
      cases fate
    · rcases List.mem_append.1 among with assuming | inner
      · -- What is said when the binding is assumed has a kind of its own.
        split at assuming
        · cases List.mem_singleton.1 assuming
          rcases about with rfl | rfl <;> cases same
        · cases assuming
      · rcases outlineInRole_warns outlined warning inner with is | is <;>
        · rw [is] at same
          rcases about with rfl | rfl <;> cases same
  · cases among

theorem outlineClass_accounts {view : Viewpoint} {path name : String} {doc : Option String} {members : List Member}
    {outline : Found ClassOutline} (ran : outlineClass view path name doc members = .ok outline) :
    (Census.ofClass view path name).Accounts (Scope.classBody.visible members) outline :=
  Census.accounts_foldlM (.start (fun list => by cases list <;> rfl) rfl rfl) ran

theorem outlineModule_accounts {view : Viewpoint} {names : List String} {mod : Module} {found : Found ModuleOutline}
    (ran : mod.outline view names = .ok found) :
    (Census.ofModule view mod.name).Accounts (Scope.moduleBody.visible mod.members) found ∧
    ∀ member ∈ Scope.moduleBody.visible mod.members, ∃ entry,
      outlineRootMember view (mod.name ++ "." ++ member.name) member = .ok entry := by
  obtain ⟨folded, membersRan, rfl⟩ := Module.outline_cases ran
  have accounts : (Census.ofModule view mod.name).Accounts (Scope.moduleBody.visible mod.members) folded :=
    Census.accounts_foldlM (.start (fun list => by cases list <;> rfl) rfl rfl) membersRan
  refine ⟨⟨accounts.becomes, accounts.warnings, accounts.size⟩, ?_⟩
  exact Outlining.ok_of_foldlM_ok membersRan

/-- Every visible member of a module, and every visible member of each of its classes, is the first of its name
in the list it is for, comes too late for its name, is left out on purpose or is not supported; in every list the
names are distinct. -/
theorem outline_accounts_for_members {view : Viewpoint} {names : List String} {mod : Module}
    {found : Found ModuleOutline} (ran : mod.outline view names = .ok found) :
    (Census.ofModule view mod.name).Accounts (Scope.moduleBody.visible mod.members) found ∧
    (∀ list, (ModuleOutline.shelves.names found.value list).Nodup) ∧
    ∀ member ∈ Scope.moduleBody.visible mod.members, ∀ doc members, member.content = .classDef doc members →
      ∃ outline : Found ClassOutline,
        outlineClass view (mod.name ++ "." ++ member.name) member.name doc members = .ok outline ∧
        (Census.ofClass view (mod.name ++ "." ++ member.name) member.name).Accounts
          (Scope.classBody.visible members) outline ∧
        (∀ list, (ClassOutline.shelves.names outline.value list).Nodup) ∧
        ∀ kind, kind = .unsupportedMember ∨ kind = .duplicateMember → Warning.count kind outline.warnings =
          Warning.count kind ((Census.ofClass view (mod.name ++ "." ++ member.name) member.name).rulings
            (Scope.classBody.visible members)) := by
  obtain ⟨accounts, each⟩ := outlineModule_accounts ran
  refine ⟨accounts, accounts.nodup, ?_⟩
  intro member visible doc members isClass
  obtain ⟨entry, contributed⟩ := each member visible
  simp only [outlineRootMember, isClass, Content.moduleRole] at contributed
  obtain ⟨outline, classRan, -⟩ := Outlining.map_eq_ok.1 contributed
  have inner := outlineClass_accounts classRan
  exact ⟨outline, classRan, inner, inner.nodup, fun _ about => inner.count_warnings fun _ => count_ownWarnings about⟩

def crowdedMembers : List Member := [
  ⟨"size", none, .property none⟩,
  ⟨"__hash__", some "object", .routine {}⟩,
  ⟨"spare", none, .absent⟩,
  ⟨"size", none, .property (some ":rtype: int")⟩,
  ⟨"scale", none, .routine {}⟩]

/-- A module with a value and two classes of one name, one of them with members of every fate. -/
def crowded : Module where
  name := "pkg"
  doc := none
  attributes := ∅
  members := [
    ⟨"Unit", none, .classDef none crowdedMembers⟩,
    ⟨"limit", none, .value "int" (.int 3)⟩,
    ⟨"Unit", none, .classDef none []⟩]

def crowdedOutline : Found ModuleOutline where
  value := {
    name := "pkg"
    classes := [{
      name := "Unit"
      attributes := [⟨"size", .any, none⟩]
      methods := [⟨"scale", .bound, undeclaredParameters "scale" .bound none, some .any, none⟩] }] }
  warnings := [.unsupportedClassMember "pkg.Unit.spare", .duplicateMember "pkg.Unit.size",
    .assumedBinding "pkg.Unit.scale", .unsupportedRootMember "pkg.limit", .duplicateMember "pkg.Unit"]

theorem crowded_accounted :
    crowded.outline ⟨∅, "pkg"⟩ [] = .ok crowdedOutline ∧
    (Census.ofModule ⟨∅, "pkg"⟩ "pkg").Accounts (Scope.moduleBody.visible crowded.members) crowdedOutline ∧
    ∃ outline : Found ClassOutline, outlineClass ⟨∅, "pkg"⟩ "pkg.Unit" "Unit" none crowdedMembers = .ok outline ∧
      (Census.ofClass ⟨∅, "pkg"⟩ "pkg.Unit" "Unit").Accounts (Scope.classBody.visible crowdedMembers) outline := by
  have ran : crowded.outline ⟨∅, "pkg"⟩ [] = .ok crowdedOutline := by with_unfolding_all rfl
  obtain ⟨accounts, -, classes⟩ := outline_accounts_for_members ran
  have visible : ⟨"Unit", none, .classDef none crowdedMembers⟩ ∈ Scope.moduleBody.visible crowded.members :=
    List.mem_cons_self
  obtain ⟨outline, classRan, inner, -⟩ := classes _ visible none crowdedMembers rfl
  exact ⟨ran, accounts, outline, classRan, inner⟩

end TypedStub
