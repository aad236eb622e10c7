import TypedStub.Proofs.Name
import TypedStub.Proofs.Outline.Joining
import TypedStub.Proofs.Outline.WrittenPaths
import TypedStub.Stub

/-! What of a module its stub depends on.

Members that are hidden or left out on purpose are not looked at, and of most others only a part is. A module can be
cut down to what is looked at, and its stub stays the same.
-/

set_option autoImplicit false

namespace TypedStub

/-- What is looked at of a member of a class. A class is taken as a constant, whatever is in it, and a value is shown
only for the names that patterns match on. -/
def Member.relevantInClass (member : Member) : Member :=
  { member with content :=
      match member.content with
      | .classDef .. => .classDef none []
      | .value typeName stored => .value typeName (if member.name = Protocol.matchArgs then stored else .null)
      | .routine callable => .routine callable
      | .property doc => .property doc
      | .absent => .absent }

def relevantMembers (className : String) (members : List Member) : List Member :=
  ((Scope.classBody.visible members).filter fun member => member.verdict className ≠ .discarded).map
    Member.relevantInClass

/-- What is looked at of a member of a module: nothing but the kind of what is neither a class nor a callable. -/
def Member.relevantInModule (member : Member) : Member :=
  { member with content :=
      match member.content with
      | .classDef doc members => .classDef doc (relevantMembers member.name members)
      | .routine callable => .routine callable
      | .property _ => .property none
      | .value .. => .value "" .null
      | .absent => .absent }

def Module.relevant (names : List String) (mod : Module) : Module where
  name := mod.name
  doc := none
  attributes := mod.attributes.restrict names
  members := (Scope.moduleBody.visible mod.members).map Member.relevantInModule

section
variable {view : Viewpoint} {path : String}

@[simp] theorem Member.relevantInClass_name (member : Member) : member.relevantInClass.name = member.name := rfl

@[simp] theorem Member.relevantInModule_name (member : Member) : member.relevantInModule.name = member.name := rfl

theorem Scope.visible_map {scope : Scope} {f : Member → Member} (named : ∀ member, (f member).name = member.name)
    {members : List Member} (visible : ∀ member ∈ members, scope.shows member.name) :
    scope.visible (members.map f) = members.map f := by
  refine List.filter_eq_self.2 fun member mapped => ?_
  obtain ⟨original, is, rfl⟩ := List.mem_map.1 mapped
  rw [named]
  exact visible original is

theorem Scope.shows_of_mem_visible {scope : Scope} {members : List Member} {member : Member}
    (visible : member ∈ scope.visible members) : scope.shows member.name :=
  (List.mem_filter.1 visible).2

theorem Member.verdict_relevantInClass (member : Member) (className : String) :
    member.relevantInClass.verdict className = member.verdict className := by
  obtain ⟨name, owner, content⟩ := member
  cases content <;> rfl

theorem outlineConstant_relevant (member : Member) :
    outlineConstant view path member.relevantInClass = outlineConstant view path member := by
  obtain ⟨name, owner, content⟩ := member
  cases content with
  | value typeName stored =>
    by_cases shown : name = Protocol.matchArgs <;>
    simp [outlineConstant, Member.relevantInClass, shown, Content.typeName]
  | classDef | routine | property | absent => rfl

/-- A member of a class contributes the same in every role, whatever of it is not looked at. -/
theorem outlineInRole_relevant (owner : String) (member : Member) (role : Role) :
    outlineInRole view path owner member.relevantInClass role = outlineInRole view path owner member role := by
  match role with
  | .constant => simp only [outlineInRole, outlineConstant_relevant]
  | .attribute | .callable _ =>
    obtain ⟨name, memberOwner, content⟩ := member
    cases content <;> rfl

theorem outlineMember_relevant (className : String) (member : Member) :
    outlineMember view path className member.relevantInClass = outlineMember view path className member := by
  unfold outlineMember
  rw [member.verdict_relevantInClass]
  simp only [outlineInRole_relevant]

theorem Found.place_nothing {α β : Type} (add? : α → β → Option α) (outline : Found α) :
    outline.place add? path { value := none } = outline := by
  simp [place, after, NameSet.union_empty]

theorem addClassMember_discarded {className : String} {member : Member}
    (discarded : member.verdict className = .discarded) (outline : Found ClassOutline) :
    addClassMember view path className outline member = .ok outline := by
  unfold addClassMember outlineMember
  rw [discarded]
  exact congrArg Except.ok (Found.place_nothing _ outline)

theorem addClassMember_relevant (className : String) (outline : Found ClassOutline) (member : Member) :
    addClassMember view path className outline member.relevantInClass =
      addClassMember view path className outline member := by
  simp only [addClassMember, outlineMember_relevant, Member.relevantInClass_name]

theorem outlineClass_relevant (name : String) (doc : Option String) (members : List Member) :
    outlineClass view path name doc (relevantMembers name members) = outlineClass view path name doc members := by
  have visible : Scope.classBody.visible (relevantMembers name members) = relevantMembers name members :=
    Scope.visible_map Member.relevantInClass_name fun member kept =>
      Scope.shows_of_mem_visible (List.mem_of_mem_filter kept)
  rw [outlineClass, visible, relevantMembers, List.foldlM_map, List.foldlM_filter, outlineClass]
  congr 1
  funext outline member
  by_cases discarded : member.verdict name = .discarded
  · rw [addClassMember_discarded discarded]
    simp [discarded]
    rfl
  · rw [if_pos (decide_eq_true discarded), addClassMember_relevant]

theorem outlineRootMember_relevant (member : Member) :
    outlineRootMember view path member.relevantInModule = outlineRootMember view path member := by
  obtain ⟨name, owner, content⟩ := member
  cases content with
  | classDef doc members =>
    exact congrArg (Except.map fun found => found.map (some ∘ ModuleEntry.classDef))
      (outlineClass_relevant name doc members)
  | routine | property | value | absent => rfl

theorem addRootMember_relevant (moduleName : String) (outline : Found ModuleOutline) (member : Member) :
    addRootMember view moduleName outline member.relevantInModule = addRootMember view moduleName outline member := by
  simp only [addRootMember, outlineRootMember_relevant, Member.relevantInModule_name]

end

namespace Module

variable {names : List String}

theorem metadata_relevant (mod : Module) : (mod.relevant names).metadata names = mod.metadata names := by
  refine List.filterMap_congr fun name listed => ?_
  rw [relevant, NameMap.get?_restrict listed]

/-- The outline of a module, or its failure, is that of the part of the module that is looked at. -/
theorem outline_relevant (view : Viewpoint) (mod : Module) :
    (mod.relevant names).outline view names = mod.outline view names := by
  have visible : Scope.moduleBody.visible (mod.relevant names).members = (mod.relevant names).members :=
    Scope.visible_map Member.relevantInModule_name fun _ => Scope.shows_of_mem_visible
  have finished : (mod.relevant names).finish names = mod.finish names := by
    funext found
    simp only [finish, metadata_relevant]
  -- What is cut away is invisible, so the run over the visible members takes the same steps.
  rw [outline_eq_map, outline_eq_map, visible, finished, relevant, List.foldlM_map]
  simp only [addRootMember_relevant]

end Module

/-- The text of a stub with its warnings, or the failure, depends on nothing else of a module: not on hidden members
or those left out on purpose, not on the module's own documentation and the attributes that the stub does not show,
and not on what the other members have beyond what is looked at. -/
theorem generate_eq_of_relevant_eq (settings : Settings) (first second : Module)
    (same : first.relevant settings.metadata = second.relevant settings.metadata) :
    settings.generate first = settings.generate second := by
  have names := congrArg Module.name same
  have named : first.name = second.name := names
  unfold Settings.generate
  rw [← Module.outline_relevant _ first, ← Module.outline_relevant _ second, same, named]

def plain : Module where
  name := "pkg"
  doc := none
  attributes := ∅
  members := [
    ⟨"Unit", none, .classDef none [⟨"size", none, .property (some ":rtype: int")⟩]⟩,
    ⟨"limit", none, .value "int" (.int 3)⟩]

def cluttered : Module where
  name := "pkg"
  doc := some ":rtype: list["
  attributes := .ofList [("__path__", .text "list[")]
  members := [
    ⟨"_draft", none, .routine { doc := some ":rtype: list[" }⟩,
    ⟨"Unit", none, .classDef none [
      ⟨"_cache", none, .property (some ":rtype: list[")⟩,
      ⟨"__reduce__", none, .routine { doc := some ":rtype: list[\n:return: one\n:return: two" }⟩,
      ⟨"size", none, .property (some ":rtype: int")⟩]⟩,
    ⟨"limit", none, .value "list[" .null⟩]

theorem generate_cluttered : ({} : Settings).generate cluttered = .ok
    { text := "from __future__ import annotations\nimport typing\n\n@typing.final\nclass Unit:\n    size: int\n"
      warnings := [.unsupportedRootMember "pkg.limit"] } := by
  have written : plain.writtenPaths = ["int"] := by with_unfolding_all rfl
  have ran : plain.outline ⟨({} : Settings).aliases, plain.name⟩ ({} : Settings).metadata = .ok {
      value := { name := "pkg", classes := [{ name := "Unit", attributes := [⟨"size", .name "int", none⟩] }] }
      warnings := [.unsupportedRootMember "pkg.limit"] } := by
    rw [Settings.aliases_of_no_types rfl, plain.outline_of_unaliased _ _ written (by decide)]
    with_unfolding_all rfl
  rw [generate_eq_of_relevant_eq {} cluttered plain (by rfl), Settings.generate_of_outline ran]
  with_unfolding_all rfl

end TypedStub
