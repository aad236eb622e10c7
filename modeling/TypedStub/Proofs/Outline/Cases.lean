import Mathlib.Data.List.Forall2
import TypedStub.Outline

/-! What the work on an outline can come to.

It comes to its end, or a failure ends it before. For each step of the work one lemma tells all that the step can do.
-/

set_option autoImplicit false

namespace TypedStub.Outlining

variable {α β γ : Type}

theorem bind_eq_ok {first : Outlining α} {next : α → Outlining β} {result : β} :
    (first >>= next) = .ok result ↔ ∃ value, first = .ok value ∧ next value = .ok result := by
  cases first with
  | error failure =>
    constructor
    · intro ran
      cases ran
    · rintro ⟨value, ran, -⟩
      cases ran
  | ok value =>
    constructor
    · intro ran
      exact ⟨value, rfl, ran⟩
    · rintro ⟨other, same, ran⟩
      cases same
      exact ran

theorem map_eq_ok {first : Outlining α} {f : α → β} {result : β} :
    first.map f = .ok result ↔ ∃ value, first = .ok value ∧ f value = result := by
  cases first <;> simp [Except.map]

/-- What each step adds for its item, all steps add for all items. -/
theorem foldlM_ok {f : α → β → Outlining α} (holds : List γ → α → Prop) (added : β → List γ)
    {items : List β} {start last : α} {before : List γ}
    (step : ∀ before value item next, item ∈ items → holds before value → f value item = .ok next →
      holds (before ++ added item) next)
    (starts : holds before start) (ran : items.foldlM f start = .ok last) :
    holds (before ++ items.flatMap added) last := by
  induction items generalizing start before with
  | nil =>
    cases ran
    rwa [List.flatMap_nil, List.append_nil]
  | cons item rest ih =>
    obtain ⟨next, stepped, ran⟩ := bind_eq_ok.1 ((List.foldlM_cons ..).symm.trans ran)
    have first := step _ _ _ _ List.mem_cons_self starts stepped
    have later := ih (fun before value item next member => step before value item next (List.mem_cons_of_mem _ member))
      first ran
    rwa [List.flatMap_cons, ← List.append_assoc]

/-- What each step preserves, all steps preserve. -/
theorem foldlM_preserves {f : α → β → Outlining α} (holds : α → Prop) {items : List β} {start last : α}
    (step : ∀ value item next, item ∈ items → holds value → f value item = .ok next → holds next)
    (starts : holds start) (ran : items.foldlM f start = .ok last) : holds last :=
  @foldlM_ok α β Empty f (fun _ => holds) (fun _ => []) items start last []
    (fun _ value item next member => step value item next member) starts ran

/-- Steps that do the same, each for its own items, lead to the same. -/
theorem foldlM_congr {δ : Type} {f : α → β → Outlining α} {g : α → δ → Outlining α} {items : List β}
    {others : List δ} {start : α}
    (same : List.Forall₂ (fun item other => ∀ value, f value item = g value other) items others) :
    items.foldlM f start = others.foldlM g start := by
  induction same generalizing start with
  | nil => rfl
  | cons first _ ih =>
    rw [List.foldlM_cons, List.foldlM_cons, first]
    congr 1
    funext next
    exact ih

theorem foldlM_congr_of_mem {f g : α → β → Outlining α} {items : List β} {start : α}
    (same : ∀ item ∈ items, ∀ value, f value item = g value item) : items.foldlM f start = items.foldlM g start :=
  foldlM_congr (List.forall₂_same.2 same)

/-! ### Failures -/

def failure? : Outlining α → Option OutlineFailure
  | .error failure => some failure
  | .ok _ => none

theorem failure?_eq_some_iff {work : Outlining α} {failure : OutlineFailure} :
    failure? work = some failure ↔ work = .error failure := by
  cases work <;> simp [failure?]

theorem failure?_eq_none_iff {work : Outlining α} : failure? work = none ↔ ∃ value, work = .ok value := by
  cases work <;> simp [failure?]

theorem failure?_map {work : Outlining α} {f : α → β} : failure? (work.map f) = failure? work := by
  cases work <;> rfl

theorem failure?_bind {first : Outlining α} {next : α → Outlining β} {later : Option OutlineFailure}
    (same : ∀ value, first = .ok value → failure? (next value) = later) :
    failure? (first >>= next) = (failure? first).or later := by
  cases ran : first with
  | error failure => rfl
  | ok value => exact same value ran

theorem failure?_bind_pure {work : Outlining α} {f : α → β} :
    failure? (do return f (← work)) = failure? work := by
  cases work <;> rfl

/-- If what a step makes of an item does not depend on the steps before, the first item at fault ends them. -/
theorem failure?_foldlM {step : α → β → Outlining α} {fault? : β → Option OutlineFailure} {items : List β}
    {start : α} (each : ∀ value, ∀ item ∈ items, failure? (step value item) = fault? item) :
    failure? (items.foldlM step start) = items.findSome? fault? := by
  induction items generalizing start with
  | nil => rfl
  | cons item rest ih =>
    have later : ∀ value, failure? (rest.foldlM step value) = rest.findSome? fault? := fun value =>
      ih fun value other member => each value other (List.mem_cons_of_mem _ member)
    rw [List.foldlM_cons, failure?_bind fun value _ => later value, each start item List.mem_cons_self,
      List.findSome?_cons]
    cases fault? item <;> rfl

/-- When all steps are done, the work on every single item is. -/
theorem ok_of_foldlM_ok {work : β → Outlining γ} {place : α → β → γ → α} {items : List β} {start last : α}
    (ran : items.foldlM (fun value item => (work item).map (place value item)) start = .ok last) :
    ∀ item ∈ items, ∃ result, work item = .ok result := by
  have first := @failure?_foldlM α β _ (fun item => failure? (work item)) items start fun value item _ =>
    @failure?_map γ α (work item) (place value item)
  rw [ran] at first
  intro item member
  exact failure?_eq_none_iff.1 (List.findSome?_eq_none_iff.1 first.symm item member)

end TypedStub.Outlining

namespace TypedStub

theorem appendNew?_eq_some_iff {α : Type} {name : α → String} {items larger : List α} {item : α} :
    appendNew? name items item = some larger ↔
      (∀ other ∈ items, name other ≠ name item) ∧ items ++ [item] = larger := by
  unfold appendNew?
  by_cases taken : ∃ other ∈ items, name other = name item
  · have any : (items.any fun other => name other = name item) = true := by simpa using taken
    obtain ⟨other, member, same⟩ := taken
    rw [if_pos any]
    constructor
    · intro nothing
      cases nothing
    · rintro ⟨distinct, -⟩
      exact absurd same (distinct other member)
  · have fresh : ¬ (items.any fun other => name other = name item) = true := by simpa using taken
    rw [if_neg fresh]
    constructor
    · intro added
      exact ⟨fun other member same => taken ⟨other, member, same⟩, Option.some.inj added⟩
    · rintro ⟨-, rfl⟩
      rfl

/-! ### Outlines as lists of entries

Classes and modules keep what their members become in several lists. A list grows at its end, and an entry that
comes too late for its name leaves its list as it is.
-/

theorem appendNew?_eq_none_iff {α : Type} {name : α → String} {items : List α} {item : α} :
    appendNew? name items item = none ↔ name item ∈ items.map name := by
  simp [appendNew?]

/-- Outlines of type `α` that keep entries of type `β` in lists, with one list for each `σ`. -/
structure Shelves (α β σ : Type) [DecidableEq σ] where
  add? : α → β → Option α
  shelf : β → σ
  name : β → String
  entries : α → σ → List β
  size : α → Nat
  /-- The name of what is outlined. -/
  title : α → String
  add?_eq_none_iff : ∀ {outline entry},
    add? outline entry = none ↔ name entry ∈ (entries outline (shelf entry)).map name
  entries_add? : ∀ {outline larger entry}, add? outline entry = some larger → ∀ place,
    entries larger place = entries outline place ++ if shelf entry = place then [entry] else []
  size_add? : ∀ {outline larger entry}, add? outline entry = some larger → size larger = size outline + 1
  title_add? : ∀ {outline larger entry}, add? outline entry = some larger → title larger = title outline

namespace Shelves

variable {α β σ : Type} [DecidableEq σ] (shelves : Shelves α β σ)

def names (outline : α) (place : σ) : List String := (shelves.entries outline place).map shelves.name

/-- What can become of a contribution: there is no entry, the entry comes too late, or it is added. The
imports and the warnings are kept in all cases. -/
theorem place_cases (path : String) (outline : Found α) (entry : Found (Option β)) :
    (entry.value = none ∧ outline.place shelves.add? path entry =
      ⟨outline.value, outline.imports ∪ entry.imports, outline.warnings ++ entry.warnings⟩) ∨
    (∃ item, entry.value = some item ∧ shelves.name item ∈ shelves.names outline.value (shelves.shelf item) ∧
      outline.place shelves.add? path entry = ⟨outline.value, outline.imports ∪ entry.imports,
        outline.warnings ++ (entry.warnings ++ [.duplicateMember path])⟩) ∨
    (∃ item larger, entry.value = some item ∧ ¬ shelves.name item ∈ shelves.names outline.value (shelves.shelf item) ∧
      shelves.add? outline.value item = some larger ∧ outline.place shelves.add? path entry =
        ⟨larger, outline.imports ∪ entry.imports, outline.warnings ++ entry.warnings⟩) := by
  unfold Found.place
  split
  · rename_i nothing
    exact .inl ⟨nothing, rfl⟩
  · rename_i item has
    split
    · rename_i larger added
      have new := fun taken => Option.some_ne_none _ (added.symm.trans (shelves.add?_eq_none_iff.2 taken))
      exact .inr (.inr ⟨item, larger, has, new, added, rfl⟩)
    · rename_i refused
      exact .inr (.inl ⟨item, has, shelves.add?_eq_none_iff.1 refused, rfl⟩)

theorem title_place (path : String) (outline : Found α) (entry : Found (Option β)) :
    shelves.title (outline.place shelves.add? path entry).value = shelves.title outline.value := by
  rcases shelves.place_cases path outline entry with
    ⟨-, placed⟩ | ⟨_, -, -, placed⟩ | ⟨item, larger, -, -, added, placed⟩
  · rw [placed]
  · rw [placed]
  · rw [placed]
    exact shelves.title_add? added

end Shelves

/-! ### The lists of a class and of a module -/

inductive ClassList where
  | attributes
  | methods
  | protocolMethods
  | constants
  deriving DecidableEq, Repr

def ClassEntry.list : ClassEntry → ClassList
  | .attribute _ => .attributes
  | .method _ => .methods
  | .protocolMethod _ => .protocolMethods
  | .constant _ => .constants

def ClassEntry.name : ClassEntry → String
  | .attribute item => item.name
  | .method item | .protocolMethod item => item.name
  | .constant item => item.name

def ClassOutline.entries (outline : ClassOutline) : ClassList → List ClassEntry
  | .attributes => outline.attributes.map .attribute
  | .methods => outline.methods.map .method
  | .protocolMethods => outline.protocolMethods.map .protocolMethod
  | .constants => outline.constants.map .constant

def ClassOutline.shelves : Shelves ClassOutline ClassEntry ClassList where
  add? := ClassOutline.add?
  shelf := ClassEntry.list
  name := ClassEntry.name
  entries := ClassOutline.entries
  size outline := outline.attributes.length + outline.methods.length + outline.protocolMethods.length
    + outline.constants.length
  title := ClassOutline.name
  add?_eq_none_iff := by
    intro outline entry
    cases entry <;> simp [ClassOutline.add?, appendNew?_eq_none_iff, ClassOutline.entries, ClassEntry.list,
      ClassEntry.name]
  entries_add? := by
    intro outline larger entry added place
    cases entry <;>
    · obtain ⟨items, appended, rfl⟩ := Option.map_eq_some_iff.1 added
      obtain ⟨-, rfl⟩ := appendNew?_eq_some_iff.1 appended
      cases place <;> simp [ClassOutline.entries, ClassEntry.list]
  size_add? := by
    intro outline larger entry added
    cases entry <;>
    · obtain ⟨items, appended, rfl⟩ := Option.map_eq_some_iff.1 added
      obtain ⟨-, rfl⟩ := appendNew?_eq_some_iff.1 appended
      simp only [List.length_append, List.length_singleton]
      omega
  title_add? := by
    intro outline larger entry added
    cases entry <;>
    · obtain ⟨items, -, rfl⟩ := Option.map_eq_some_iff.1 added
      rfl

inductive ModuleList where
  | classes
  | functions
  deriving DecidableEq, Repr

def ModuleEntry.list : ModuleEntry → ModuleList
  | .classDef _ => .classes
  | .function _ => .functions

def ModuleEntry.name : ModuleEntry → String
  | .classDef item => item.name
  | .function item => item.name

def ModuleOutline.entries (outline : ModuleOutline) : ModuleList → List ModuleEntry
  | .classes => outline.classes.map .classDef
  | .functions => outline.functions.map .function

def ModuleOutline.shelves : Shelves ModuleOutline ModuleEntry ModuleList where
  add? := ModuleOutline.add?
  shelf := ModuleEntry.list
  name := ModuleEntry.name
  entries := ModuleOutline.entries
  size outline := outline.classes.length + outline.functions.length
  title := ModuleOutline.name
  add?_eq_none_iff := by
    intro outline entry
    cases entry <;> simp [ModuleOutline.add?, appendNew?_eq_none_iff, ModuleOutline.entries, ModuleEntry.list,
      ModuleEntry.name]
  entries_add? := by
    intro outline larger entry added place
    cases entry <;>
    · obtain ⟨items, appended, rfl⟩ := Option.map_eq_some_iff.1 added
      obtain ⟨-, rfl⟩ := appendNew?_eq_some_iff.1 appended
      cases place <;> simp [ModuleOutline.entries, ModuleEntry.list]
  size_add? := by
    intro outline larger entry added
    cases entry <;>
    · obtain ⟨items, appended, rfl⟩ := Option.map_eq_some_iff.1 added
      obtain ⟨-, rfl⟩ := appendNew?_eq_some_iff.1 appended
      simp only [List.length_append, List.length_singleton]
      omega
  title_add? := by
    intro outline larger entry added
    cases entry <;>
    · obtain ⟨items, -, rfl⟩ := Option.map_eq_some_iff.1 added
      rfl

/-! ### What has been done when the work on a member comes to its end

What is proved of outlines is proved from the lemmas of this section.
-/

variable {view : Viewpoint} {path name : String}

theorem addField_cases {declared : List Parameter} {field : ParameterField} {typing next : Found Typing}
    (ran : Typing.addField view path declared typing field = .ok next) :
    (declared.any fun parameter => parameter.name = field.name) ∧
      (∃ type, readDocumentedType view path field.type = .ok type ∧
        next = typing.after (type.map fun type =>
          { types := typing.value.types.insert field.name type
            optional :=
              if field.optional then typing.value.optional.insert field.name else typing.value.optional })) ∨
    ¬ (declared.any fun parameter => parameter.name = field.name) ∧
      next = typing.warn (.unknownParameter path field.name) := by
  unfold Typing.addField at ran
  split at ran
  · rename_i isDeclared
    obtain ⟨type, read, rfl⟩ := Outlining.map_eq_ok.1 ran
    exact .inl ⟨isDeclared, type, read, rfl⟩
  · rename_i notDeclared
    cases ran
    exact .inr ⟨notDeclared, rfl⟩

theorem outlineParameters_cases {kind : CallableKind} {signature : Option Signature} {fields : List ParameterField}
    {shape : Option ProtocolShape} {found : Found (List ParameterOutline)}
    (ran : outlineParameters view path name kind signature fields shape = .ok found) :
    shape = some .bare ∧ found = { value := [] } ∨
    shape ≠ some .bare ∧ signature = none ∧ found = { value := undeclaredParameters name kind shape } ∨
    shape ≠ some .bare ∧ ∃ declared typing, signature.map (·.withReceiver name kind) = some declared ∧
      fields.foldlM (Typing.addField view path declared) { value := .ofShape shape declared } = .ok typing ∧
      found = typing.after (typing.value.outlineAll path [] declared) := by
  unfold outlineParameters at ran
  split at ran
  · rename_i bare
    cases ran
    exact .inl ⟨bare, rfl⟩
  · rename_i told
    cases signature with
    | none =>
      cases ran
      exact .inr (.inl ⟨told, rfl, rfl⟩)
    | some signature =>
      obtain ⟨typing, folded, returned⟩ := Outlining.bind_eq_ok.1 ran
      cases returned
      exact .inr (.inr ⟨told, _, typing, rfl, folded, rfl⟩)

theorem outlineReturns_cases {kind : CallableKind} {owner : Option String} {returnTypes : List String}
    {shape : Option ProtocolShape} {found : Found (Option TypeTerm)}
    (ran : outlineReturns view path name kind owner returnTypes shape = .ok found) :
    shape = some .bare ∧ found = { value := none } ∨
    (kind = .constructor ∧ name = Protocol.allocator) ∧
      found = { value := some ((owner.map TypeTerm.name).getD .any) } ∨
    (shape ≠ some .bare ∧ ¬ (kind = .constructor ∧ name = Protocol.allocator)) ∧
      (returnTypes = [] ∧ found = { value := some (((shape.bind ProtocolShape.returns?).map TypeTerm.name).getD .any) } ∨
      ∃ text type, returnTypes = [text] ∧ readDocumentedType view path text = .ok type ∧ found = type.map some) := by
  unfold outlineReturns at ran
  split at ran
  · rename_i bare
    cases ran
    exact .inl ⟨bare, rfl⟩
  · rename_i told
    split at ran
    · rename_i allocates
      cases ran
      exact .inr (.inl ⟨allocates, rfl⟩)
    · rename_i notAllocates
      refine .inr (.inr ⟨⟨told, notAllocates⟩, ?_⟩)
      split at ran
      · cases ran
        exact .inl ⟨rfl, rfl⟩
      · obtain ⟨type, read, rfl⟩ := Outlining.map_eq_ok.1 ran
        exact .inr ⟨_, type, rfl, read, rfl⟩
      · cases ran

theorem outlineCallable_cases {kind : CallableKind} {owner : Option String} {routine : Routine}
    {found : Found CallableOutline} (ran : outlineCallable view path name kind owner routine = .ok found) :
    let doc := Documentation.ofText (routine.doc.getD "")
    doc.returned.length ≤ 1 ∧
    (owner.map isErrorType = some true ∧ found = { value := ⟨name, kind, [], none, doc.text⟩ } ∨
    owner.map isErrorType ≠ some true ∧ ∃ parameters returns,
      outlineParameters view path name kind routine.signature doc.parameters (Protocol.shape? name) = .ok parameters ∧
      outlineReturns view path name kind owner doc.returnTypes (Protocol.shape? name) = .ok returns ∧
      found = parameters.after (returns.map fun type => ⟨name, kind, parameters.value, type, doc.text⟩)) := by
  unfold outlineCallable at ran
  dsimp only at ran ⊢
  split at ran
  · obtain ⟨_, thrown, _⟩ := Outlining.bind_eq_ok.1 ran
    cases thrown
  rename_i single
  refine ⟨Nat.le_of_not_lt single, ?_⟩
  split at ran
  · rename_i isError
    cases ran
    exact .inl ⟨isError, rfl⟩
  · rename_i notError
    obtain ⟨parameters, ranParameters, ran⟩ := Outlining.bind_eq_ok.1 ran
    obtain ⟨returns, ranReturns, ran⟩ := Outlining.bind_eq_ok.1 ran
    cases ran
    exact .inr ⟨notError, parameters, returns, ranParameters, ranReturns, rfl⟩

theorem attributeType_cases {owner : String} {returnTypes : List String} {found : Found TypeTerm}
    (ran : attributeType view path owner returnTypes = .ok found) :
    (isErrorType owner ∨ returnTypes = []) ∧ found = { value := .any } ∨
    ¬ isErrorType owner ∧ ∃ type, returnTypes = [type] ∧ readDocumentedType view path type = .ok found := by
  unfold attributeType at ran
  split at ran
  · rename_i isError
    cases ran
    exact .inl ⟨.inl isError, rfl⟩
  · rename_i notError
    split at ran
    · cases ran
      exact .inl ⟨.inr rfl, rfl⟩
    · exact .inr ⟨notError, _, rfl, ran⟩
    · cases ran

theorem outlineAttribute_cases {owner : String} {doc : Option String} {found : Found AttributeOutline}
    (ran : outlineAttribute view path owner name doc = .ok found) :
    let doc := Documentation.ofText (doc.getD "")
    doc.returned.length ≤ 1 ∧ ∃ type, attributeType view path owner doc.returnTypes = .ok type ∧
      found = type.map fun type => ⟨name, type, doc.returned.head?.filter (· ≠ "")⟩ := by
  obtain ⟨type, typed, ran⟩ := Outlining.bind_eq_ok.1 ran
  dsimp only at ran ⊢
  split at ran
  · rename_i returned
    cases ran
    rw [returned]
    exact ⟨Nat.zero_le 1, type, typed, rfl⟩
  · rename_i text returned
    cases ran
    rw [returned]
    refine ⟨Nat.le_refl 1, type, typed, ?_⟩
    by_cases empty : text = "" <;> simp [empty, Option.filter]
  · cases ran

theorem outlineConstant_cases {member : Member} {found : Found ConstantOutline}
    (ran : outlineConstant view path member = .ok found) :
    member.name = Protocol.matchArgs ∧ found = { value := ⟨member.name, .textTuple, member.content.literal?⟩ } ∨
    member.name ≠ Protocol.matchArgs ∧ ∃ type, readDocumentedType view path member.content.typeName = .ok type ∧
      found = type.map fun type => ⟨member.name, type, none⟩ := by
  unfold outlineConstant at ran
  split at ran
  · rename_i isMatchArgs
    cases ran
    exact .inl ⟨isMatchArgs, rfl⟩
  · rename_i different
    obtain ⟨type, read, rfl⟩ := Outlining.map_eq_ok.1 ran
    exact .inr ⟨different, type, read, rfl⟩

theorem outlineMember_cases {owner : String} {member : Member} {found : Found (Option ClassEntry)}
    (ran : outlineMember view path owner member = .ok found) :
    member.verdict owner = .discarded ∧ found = { value := none } ∨
    member.verdict owner = .unsupported ∧ found = { value := none, warnings := [.unsupportedClassMember path] } ∨
    ∃ role assumed entry, member.verdict owner = .shown role assumed ∧
      outlineInRole view path owner member role = .ok entry ∧
      found = ⟨some entry.value, entry.imports,
        (if assumed then [.assumedBinding path] else []) ++ entry.warnings⟩ := by
  unfold outlineMember at ran
  cases decided : member.verdict owner with
  | discarded =>
    rw [decided] at ran
    cases ran
    exact .inl ⟨rfl, rfl⟩
  | unsupported =>
    rw [decided] at ran
    cases ran
    exact .inr (.inl ⟨rfl, rfl⟩)
  | shown role assumed =>
    rw [decided] at ran
    obtain ⟨entry, outlined, rfl⟩ := Outlining.map_eq_ok.1 ran
    exact .inr (.inr ⟨role, assumed, entry, rfl, outlined, rfl⟩)

theorem outlineRootMember_cases {member : Member} {found : Found (Option ModuleEntry)}
    (ran : outlineRootMember view path member = .ok found) :
    (∃ doc members item, member.content.moduleRole = .classDef doc members ∧
      outlineClass view path member.name doc members = .ok item ∧ found = item.map (some ∘ .classDef)) ∨
    (∃ routine item, member.content.moduleRole = .function routine ∧
      outlineCallable view path member.name .function none routine = .ok item ∧ found = item.map (some ∘ .function)) ∨
    member.content.moduleRole = .unsupported ∧
      found = { value := none, warnings := [.unsupportedRootMember path] } := by
  unfold outlineRootMember at ran
  cases role : member.content.moduleRole with
  | classDef doc members =>
    rw [role] at ran
    obtain ⟨item, outlined, rfl⟩ := Outlining.map_eq_ok.1 ran
    exact .inl ⟨doc, members, item, rfl, outlined, rfl⟩
  | function routine =>
    rw [role] at ran
    obtain ⟨item, outlined, rfl⟩ := Outlining.map_eq_ok.1 ran
    exact .inr (.inl ⟨routine, item, rfl, outlined, rfl⟩)
  | unsupported =>
    rw [role] at ran
    cases ran
    exact .inr (.inr ⟨rfl, rfl⟩)

theorem name_addRootMembers {moduleName : String} {members : List Member} {start last : Found ModuleOutline}
    (ran : members.foldlM (addRootMember view moduleName) start = .ok last) : last.value.name = start.value.name := by
  refine Outlining.foldlM_preserves (fun found => found.value.name = start.value.name) ?_ rfl ran
  intro found member next _ named stepped
  obtain ⟨entry, -, rfl⟩ := Outlining.map_eq_ok.1 stepped
  exact (ModuleOutline.shelves.title_place _ found entry).trans named

namespace Module

/-- What is added to the outline of the members of a module when all of them are in it. -/
def finish (mod : Module) (names : List String) (found : Found ModuleOutline) : Found ModuleOutline :=
  found.map fun outline => { outline with metadata := mod.metadata names, imports := found.imports }

theorem outline_eq_map {names : List String} {mod : Module} :
    mod.outline view names = ((Scope.moduleBody.visible mod.members).foldlM (addRootMember view mod.name)
      { value := { name := mod.name } }).map (mod.finish names) := by
  unfold outline
  cases (Scope.moduleBody.visible mod.members).foldlM (addRootMember view mod.name) { value := { name := mod.name } }
    <;> rfl

theorem outline_cases {names : List String} {mod : Module} {found : Found ModuleOutline}
    (ran : mod.outline view names = .ok found) :
    ∃ folded, (Scope.moduleBody.visible mod.members).foldlM (addRootMember view mod.name)
      { value := { name := mod.name } } = .ok folded ∧ mod.finish names folded = found :=
  Outlining.map_eq_ok.1 (outline_eq_map.symm.trans ran)

end Module

end TypedStub
