import TypedStub.Proofs.Lists
import TypedStub.Proofs.Outline.Accounting

/-! Where the parts of an outline come from.

What stands in an outline was made from a visible member. What is proved of one member by itself so holds of the
parts of the outlines of all modules.
-/

set_option autoImplicit false

namespace TypedStub

theorem mem_of_mem_firsts {α κ : Type} [DecidableEq κ] {key : α → κ} {items : List α} {item : α}
    (first : item ∈ firsts key items) : item ∈ items := by
  induction items using List.reverseRecOn with
  | nil => cases first
  | append_singleton items last ih =>
    rw [firsts_append_singleton] at first
    rcases List.mem_append.1 first with first | first
    · exact List.mem_append_left _ (ih first)
    · split at first
      · cases first
      · exact List.mem_append_right _ first

theorem Census.Accounts.exists_becomes {α β σ : Type} [DecidableEq σ] {census : Census α β σ} {members : List Member}
    {outline : Found α} {item : β} (accounts : census.Accounts members outline) (place : σ)
    (listed : item ∈ census.entries outline.value place) : ∃ member ∈ members, census.Becomes member item := by
  obtain ⟨i, inRange, rfl⟩ := List.getElem_of_mem listed
  have lengths := (accounts.becomes place).length_eq
  have becomes := (accounts.becomes place).get (lengths ▸ inRange) inRange
  exact ⟨_, List.mem_of_mem_filter (mem_of_mem_firsts (List.get_mem _ _)), becomes⟩

/-- A visible member of a visible class of a name. -/
def Module.HasClassMember (mod : Module) (className : String) (member : Member) : Prop :=
  ∃ outer ∈ Scope.moduleBody.visible mod.members, outer.name = className ∧
    ∃ doc members, outer.content = .classDef doc members ∧ member ∈ Scope.classBody.visible members

section
variable {view : Viewpoint} {path owner : String} {names : List String} {mod : Module} {found : Found ModuleOutline}
  {item : ClassOutline}

/-! ### Members of a class -/

theorem outlineCallable_kind {name : String} {kind : CallableKind} {owner : Option String} {routine : Routine}
    {made : Found CallableOutline} (ran : outlineCallable view path name kind owner routine = .ok made) :
    made.value.kind = kind := by
  obtain ⟨-, ⟨-, rfl⟩ | ⟨-, parameters, returns, -, -, rfl⟩⟩ := outlineCallable_cases ran <;>
  rfl

theorem outlineCallable_of_entry {member : Member} {made : Found (Option ClassEntry)} {method : CallableOutline}
    (ran : outlineMember view path owner member = .ok made)
    (is : made.value = some (.method method) ∨ made.value = some (.protocolMethod method)) :
    (∃ assumed, member.verdict owner = .shown (.callable method.kind) assumed) ∧
      ∃ callable, outlineCallable view path member.name method.kind (some owner)
        (member.content.routine?.getD {}) = .ok callable ∧ callable.value = method := by
  obtain ⟨-, rfl⟩ | ⟨-, rfl⟩ | ⟨role, assumed, entry, decided, outlined, rfl⟩ := outlineMember_cases ran
  · rcases is with impossible | impossible <;> cases impossible
  · rcases is with impossible | impossible <;> cases impossible
  · match role, outlined with
    | .attribute, outlined | .constant, outlined =>
      obtain ⟨item, -, rfl⟩ := Outlining.map_eq_ok.1 outlined
      rcases is with other | other <;> cases other
    | .callable kind, outlined =>
      obtain ⟨callable, ranCallable, rfl⟩ := Outlining.map_eq_ok.1 outlined
      have same : callable.value = method := by
        simp only [Found.map] at is
        split at is <;> rcases is with same | same <;> cases same <;> rfl
      have kindOf := outlineCallable_kind ranCallable
      rw [same] at kindOf
      rw [kindOf]
      exact ⟨⟨assumed, decided⟩, callable, ranCallable, same⟩

theorem outlineAttribute_of_entry {member : Member} {made : Found (Option ClassEntry)} {property : AttributeOutline}
    (ran : outlineMember view path owner member = .ok made) (is : made.value = some (.attribute property)) :
    ∃ typed, outlineAttribute view path owner member.name member.content.propertyDoc = .ok typed ∧
      typed.value = property := by
  obtain ⟨-, rfl⟩ | ⟨-, rfl⟩ | ⟨role, assumed, entry, -, outlined, rfl⟩ := outlineMember_cases ran
  · cases is
  · cases is
  · match role, outlined with
    | .attribute, outlined =>
      obtain ⟨typed, ranProperty, rfl⟩ := Outlining.map_eq_ok.1 outlined
      cases is
      exact ⟨typed, ranProperty, rfl⟩
    | .constant, outlined =>
      obtain ⟨constant, -, rfl⟩ := Outlining.map_eq_ok.1 outlined
      cases is
    | .callable kind, outlined =>
      obtain ⟨callable, -, rfl⟩ := Outlining.map_eq_ok.1 outlined
      simp only [Found.map] at is
      split at is <;> cases is

theorem outlineConstant_of_entry {member : Member} {made : Found (Option ClassEntry)} {constant : ConstantOutline}
    (ran : outlineMember view path owner member = .ok made) (is : made.value = some (.constant constant)) :
    ∃ typed, outlineConstant view path member = .ok typed ∧ typed.value = constant := by
  obtain ⟨-, rfl⟩ | ⟨-, rfl⟩ | ⟨role, assumed, entry, -, outlined, rfl⟩ := outlineMember_cases ran
  · cases is
  · cases is
  · match role, outlined with
    | .attribute, outlined =>
      obtain ⟨property, -, rfl⟩ := Outlining.map_eq_ok.1 outlined
      cases is
    | .constant, outlined =>
      obtain ⟨typed, ranConstant, rfl⟩ := Outlining.map_eq_ok.1 outlined
      cases is
      exact ⟨typed, ranConstant, rfl⟩
    | .callable kind, outlined =>
      obtain ⟨callable, -, rfl⟩ := Outlining.map_eq_ok.1 outlined
      simp only [Found.map] at is
      split at is <;> cases is

/-! ### Classes and modules -/

theorem exists_class (ran : mod.outline view names = .ok found) (listed : item ∈ found.value.classes) :
    ∃ outer ∈ Scope.moduleBody.visible mod.members, outer.name = item.name ∧
      ∃ doc members, outer.content = .classDef doc members ∧ ∃ outline : Found ClassOutline,
        outlineClass view (mod.name ++ "." ++ item.name) item.name doc members = .ok outline ∧
        outline.value = item := by
  have inList : ModuleEntry.classDef item ∈ (Census.ofModule view mod.name).entries found.value .classes :=
    List.mem_map_of_mem listed
  obtain ⟨outer, visible, becomes⟩ := (outlineModule_accounts ran).1.exists_becomes _ inList
  have named : item.name = outer.name := becomes.listed.2
  obtain ⟨entry, contributed, is⟩ := becomes
  obtain ⟨doc, members, outline, role, outlined, rfl⟩ | ⟨routine, callable, -, -, rfl⟩ | ⟨-, rfl⟩ :=
    outlineRootMember_cases contributed
  · cases is
    have content : outer.content = .classDef doc members := by
      revert role
      cases outer.content <;> simp [Content.moduleRole]
    rw [named]
    exact ⟨outer, visible, rfl, doc, members, content, outline, outlined, rfl⟩
  · cases is
  · cases is

theorem exists_function (ran : mod.outline view names = .ok found) {callable : CallableOutline}
    (listed : callable ∈ found.value.functions) :
    ∃ member ∈ Scope.moduleBody.visible mod.members, member.name = callable.name ∧
      ∃ routine, member.content = .routine routine ∧ ∃ made,
        outlineCallable view (mod.name ++ "." ++ callable.name) callable.name .function none routine = .ok made ∧
        made.value = callable := by
  have inList : ModuleEntry.function callable ∈ (Census.ofModule view mod.name).entries found.value .functions :=
    List.mem_map_of_mem listed
  obtain ⟨member, visible, becomes⟩ := (outlineModule_accounts ran).1.exists_becomes _ inList
  have named : callable.name = member.name := becomes.listed.2
  obtain ⟨entry, contributed, is⟩ := becomes
  obtain ⟨doc, members, outline, -, -, rfl⟩ | ⟨routine, made, role, outlined, rfl⟩ | ⟨-, rfl⟩ :=
    outlineRootMember_cases contributed
  · cases is
  · cases is
    have content : member.content = .routine routine := by
      revert role
      cases member.content <;> simp [Content.moduleRole]
    rw [named]
    exact ⟨member, visible, rfl, routine, content, made, outlined, rfl⟩
  · cases is

/-- Every entry of a class is what one of its members contributes by itself. -/
theorem exists_classMember (ran : mod.outline view names = .ok found) (listed : item ∈ found.value.classes)
    {place : ClassList} {entry : ClassEntry} (inside : entry ∈ item.entries place) :
    ∃ member, mod.HasClassMember item.name member ∧ member.name = entry.name ∧ ∃ made,
      outlineMember view (mod.name ++ "." ++ item.name ++ "." ++ member.name) item.name member = .ok made ∧
      made.value = some entry := by
  obtain ⟨outer, visible, named, doc, members, content, outline, outlined, rfl⟩ := exists_class ran listed
  obtain ⟨member, visibleInside, becomes⟩ := (outlineClass_accounts outlined).exists_becomes place inside
  refine ⟨member, ⟨outer, visible, named, doc, members, content, visibleInside⟩, becomes.listed.2.symm, ?_⟩
  exact becomes

/-- Every method is the outline of a member that is shown as a callable of its kind. -/
theorem exists_callable (ran : mod.outline view names = .ok found) (listed : item ∈ found.value.classes)
    {method : CallableOutline} (inside : method ∈ item.methods ++ item.protocolMethods) :
    ∃ member, mod.HasClassMember item.name member ∧ member.name = method.name ∧
      (∃ assumed, member.verdict item.name = .shown (.callable method.kind) assumed) ∧
      ∃ made, outlineCallable view (mod.name ++ "." ++ item.name ++ "." ++ member.name) member.name method.kind
        (some item.name) (member.content.routine?.getD {}) = .ok made ∧ made.value = method := by
  have one : ∀ place entry, entry ∈ item.entries place → entry.name = method.name →
      (some entry = some (.method method) ∨ some entry = some (.protocolMethod method)) →
      ∃ member, mod.HasClassMember item.name member ∧ member.name = method.name ∧
        (∃ assumed, member.verdict item.name = .shown (.callable method.kind) assumed) ∧
        ∃ made, outlineCallable view (mod.name ++ "." ++ item.name ++ "." ++ member.name) member.name method.kind
          (some item.name) (member.content.routine?.getD {}) = .ok made ∧ made.value = method := by
    intro place entry inList entryNamed is
    obtain ⟨member, has, named, made, contributed, value⟩ := exists_classMember ran listed inList
    exact ⟨member, has, named.trans entryNamed, outlineCallable_of_entry contributed (value ▸ is)⟩
  rcases List.mem_append.1 inside with inside | inside
  · exact one .methods _ (List.mem_map_of_mem inside) rfl (.inl rfl)
  · exact one .protocolMethods _ (List.mem_map_of_mem inside) rfl (.inr rfl)

theorem exists_property (ran : mod.outline view names = .ok found) (listed : item ∈ found.value.classes)
    {property : AttributeOutline} (inside : property ∈ item.attributes) :
    ∃ member, mod.HasClassMember item.name member ∧ member.name = property.name ∧ ∃ made,
      outlineAttribute view (mod.name ++ "." ++ item.name ++ "." ++ member.name) item.name member.name
        member.content.propertyDoc = .ok made ∧ made.value = property := by
  have inList : ClassEntry.attribute property ∈ item.entries .attributes := List.mem_map_of_mem inside
  obtain ⟨member, has, named, made, contributed, value⟩ := exists_classMember ran listed inList
  exact ⟨member, has, named, outlineAttribute_of_entry contributed value⟩

theorem exists_constant (ran : mod.outline view names = .ok found) (listed : item ∈ found.value.classes)
    {constant : ConstantOutline} (inside : constant ∈ item.constants) :
    ∃ member, mod.HasClassMember item.name member ∧ member.name = constant.name ∧ ∃ made,
      outlineConstant view (mod.name ++ "." ++ item.name ++ "." ++ member.name) member = .ok made ∧
      made.value = constant := by
  have inList : ClassEntry.constant constant ∈ item.entries .constants := List.mem_map_of_mem inside
  obtain ⟨member, has, named, made, contributed, value⟩ := exists_classMember ran listed inList
  exact ⟨member, has, named, outlineConstant_of_entry contributed value⟩

/-! ### Looking up what an outline shows

The names in each list of an outline are distinct, and the name of a callable tells which of the two lists of its class
it is in. So the entry that is found under a name is the only one of that name.
-/

theorem class?_eq_some_iff (ran : mod.outline view names = .ok found) {name : String} :
    found.value.class? name = some item ↔ item ∈ found.value.classes ∧ item.name = name := by
  have distinct := (outlineModule_accounts ran).1.nodup .classes
  change ((found.value.classes.map ModuleEntry.classDef).map ModuleEntry.name).Nodup at distinct
  rw [List.map_map] at distinct
  exact find?_eq_some_iff_of_nodup distinct

/-- The names of operators and their like, which are not those of constructors. -/
def IsProtocolMethodName (name : String) : Prop :=
  Protocol.isConstructorName name = false ∧ isProtocolName name = true

theorem binding?_ne_protocol (routine : Routine) : routine.binding?.1 ≠ .protocol := by
  unfold Routine.binding?
  split
  · simp
  · simp
  · simp
  · split
    · simp
    · split <;> simp

theorem kind_eq_protocol_iff {member : Member} {kind : CallableKind} {assumed : Bool}
    (decided : member.verdict owner = .shown (.callable kind) assumed) :
    kind = .protocol ↔ IsProtocolMethodName member.name := by
  unfold Member.verdict at decided
  unfold IsProtocolMethodName
  split at decided
  · rename_i constructs
    split at decided
    · cases decided
    · cases decided
      simp [constructs]
  · rename_i others
    split at decided
    · cases decided
    · split at decided
      · cases decided
      · split at decided
        · rename_i isProtocol
          cases decided
          simp [others, isProtocol]
        · rename_i ordinary
          cases decided
          exact iff_of_false (binding?_ne_protocol _) fun named => ordinary named.2
      · split at decided <;> cases decided
      · split at decided <;> cases decided
      · split at decided <;> cases decided

theorem list_eq_protocolMethods_iff (ran : mod.outline view names = .ok found) (listed : item ∈ found.value.classes)
    (place : ClassList) {entry : ClassEntry} (inside : entry ∈ item.entries place) {method : CallableOutline}
    (is : entry = .method method ∨ entry = .protocolMethod method) :
    entry.list = .protocolMethods ↔ IsProtocolMethodName entry.name := by
  obtain ⟨member, -, named, made, contributed, value⟩ := exists_classMember ran listed inside
  have isEntry : made.value = some (.method method) ∨ made.value = some (.protocolMethod method) := by
    rw [value]
    exact is.imp (congrArg some) (congrArg some)
  obtain ⟨⟨assumed, decided⟩, -⟩ := outlineCallable_of_entry contributed isEntry
  obtain ⟨other, -⟩ | ⟨other, -⟩ | ⟨role, _, outlined, other, ranRole, rfl⟩ := outlineMember_cases contributed
  · rw [decided] at other
    cases other
  · rw [decided] at other
    cases other
  · rw [decided] at other
    cases other
    cases value
    rw [(outlineInRole_entry ranRole).1, ← named, ← kind_eq_protocol_iff decided, Role.list]
    split
    · rename_i isProtocol
      exact iff_of_true rfl isProtocol
    · rename_i ordinary
      exact iff_of_false (by simp) ordinary

theorem nodup_callables (ran : mod.outline view names = .ok found) (listed : item ∈ found.value.classes) :
    ((item.methods ++ item.protocolMethods).map CallableOutline.name).Nodup := by
  obtain ⟨_, -, -, doc, members, -, outline, outlined, rfl⟩ := exists_class ran listed
  have accounts := outlineClass_accounts outlined
  have methods := accounts.nodup .methods
  have protocolMethods := accounts.nodup .protocolMethods
  change ((outline.value.methods.map ClassEntry.method).map ClassEntry.name).Nodup at methods
  change ((outline.value.protocolMethods.map ClassEntry.protocolMethod).map ClassEntry.name).Nodup at protocolMethods
  rw [List.map_map] at methods protocolMethods
  rw [List.map_append]
  refine List.nodup_append.2 ⟨methods, protocolMethods, fun name among other amongOthers same => ?_⟩
  obtain ⟨method, inside, rfl⟩ := List.mem_map.1 among
  obtain ⟨operator, insideOther, rfl⟩ := List.mem_map.1 amongOthers
  have isOperator : IsProtocolMethodName operator.name :=
    (list_eq_protocolMethods_iff ran listed .protocolMethods (List.mem_map_of_mem insideOther) (.inr rfl)).1 rfl
  have ordinary : ¬ IsProtocolMethodName method.name :=
    (list_eq_protocolMethods_iff ran listed .methods (List.mem_map_of_mem inside) (.inl rfl)).not.1
      (by simp [ClassEntry.list])
  exact ordinary (same ▸ isOperator)

theorem callable?_eq_some_iff (ran : mod.outline view names = .ok found) (listed : item ∈ found.value.classes)
    {name : String} {method : CallableOutline} :
    item.callable? name = some method ↔ method ∈ item.methods ++ item.protocolMethods ∧ method.name = name :=
  find?_eq_some_iff_of_nodup (nodup_callables ran listed)

end

end TypedStub
