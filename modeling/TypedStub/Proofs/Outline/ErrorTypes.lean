import TypedStub.Proofs.Documentation.Lines
import TypedStub.Proofs.Outline.Faults
import TypedStub.Proofs.Outline.Origins

/-! Error types.

What the members of an error type document about types is never read. So it makes no difference which lines about
types stand there, and none of them can be at fault.
-/

set_option autoImplicit false

namespace TypedStub

open Documentation (DifferInTypeLines)

/-- What two versions of a member are like if their documentation differs in lines about types alone. Without any
documentation there is no line. -/
inductive Content.DifferInTypeLines : Content → Content → Prop where
  | classDef {doc other : Option String} (members : List Member)
      (docs : Documentation.DifferInTypeLines (doc.getD "") (other.getD "")) :
      DifferInTypeLines (.classDef doc members) (.classDef other members)
  | routine {doc other : Option String} (routine : Routine)
      (docs : Documentation.DifferInTypeLines (doc.getD "") (other.getD "")) :
      DifferInTypeLines (.routine { routine with doc := doc }) (.routine { routine with doc := other })
  | property {doc other : Option String}
      (docs : Documentation.DifferInTypeLines (doc.getD "") (other.getD "")) :
      DifferInTypeLines (.property doc) (.property other)
  | value (typeName : String) (stored : Literal) : DifferInTypeLines (.value typeName stored) (.value typeName stored)
  | absent : DifferInTypeLines .absent .absent

structure Member.DifferInTypeLines (first second : Member) : Prop where
  name : first.name = second.name
  owner : first.owner = second.owner
  content : first.content.DifferInTypeLines second.content

/-- The member has documentation that is read for types: it is a callable or a property. -/
def Content.IsDocumented : Content → Prop
  | .routine _ | .property _ => True
  | .classDef .. | .value .. | .absent => False

def Module.withClass (mod : Module) (earlier later : List Member) (name : String) (owner doc : Option String)
    (members : List Member) : Module :=
  { mod with members := earlier ++ ⟨name, owner, .classDef doc members⟩ :: later }

/-- What is shown of a class says nothing about types: nobody makes an object of it, its callables have neither
parameters nor results, and its attributes may be anything. -/
structure ClassOutline.IsUntyped (item : ClassOutline) : Prop where
  callables : ∀ method ∈ item.methods ++ item.protocolMethods,
    method.kind ≠ .constructor ∧ Protocol.isConstructorName method.name = false ∧
      method.parameters = [] ∧ method.returns = none
  attributes : ∀ property ∈ item.attributes, property.type = .any

section
variable {view : Viewpoint} {path name owner : String}

/-! ### One member -/

/-- The only fault that a callable of an error type can have is a repeated `:return:`. -/
theorem outlineCallable_of_errorType (isError : isErrorType owner = true) (kind : CallableKind) (routine : Routine) :
    outlineCallable view path name kind (some owner) routine =
      let doc := Documentation.ofText (routine.doc.getD "")
      if 1 < doc.returned.length then .error (.repeatedField path .returned)
      else .ok { value := ⟨name, kind, [], none, doc.text⟩ } := by
  have owned : (some owner).map isErrorType = some true := congrArg some isError
  unfold outlineCallable
  dsimp only
  rw [if_pos owned]
  split <;> rfl

theorem outlineAttribute_of_errorType (isError : isErrorType owner = true) (doc : Option String) :
    outlineAttribute view path owner name doc =
      match (Documentation.ofText (doc.getD "")).returned with
      | [] => .ok { value := ⟨name, .any, none⟩ }
      | [text] => .ok { value := ⟨name, .any, if text = "" then none else some text⟩ }
      | _ => .error (.repeatedField path .returned) := by
  unfold outlineAttribute attributeType
  dsimp only
  rw [if_pos isError]
  rfl

theorem outlineCallable_congr (isError : isErrorType owner = true) (kind : CallableKind) {first second : Routine}
    (docs : DifferInTypeLines (first.doc.getD "") (second.doc.getD "")) :
    outlineCallable view path name kind (some owner) first =
      outlineCallable view path name kind (some owner) second := by
  simp only [outlineCallable_of_errorType isError, docs.text, docs.returned]

theorem outlineAttribute_congr (isError : isErrorType owner = true) {doc other : Option String}
    (docs : DifferInTypeLines (doc.getD "") (other.getD "")) :
    outlineAttribute view path owner name doc = outlineAttribute view path owner name other := by
  simp only [outlineAttribute_of_errorType isError, docs.returned]

theorem Member.DifferInTypeLines.verdict {first second : Member} (differ : first.DifferInTypeLines second)
    (className : String) : first.verdict className = second.verdict className := by
  obtain ⟨name, owner, content⟩ := first
  obtain ⟨otherName, otherOwner, otherContent⟩ := second
  obtain ⟨rfl, rfl, contents⟩ := differ
  cases contents <;> rfl

theorem outlineInRole_congr (isError : isErrorType owner = true) {first second : Member}
    (differ : first.DifferInTypeLines second) (role : Role) :
    outlineInRole view path owner first role = outlineInRole view path owner second role := by
  obtain ⟨name, memberOwner, content⟩ := first
  obtain ⟨otherName, otherOwner, otherContent⟩ := second
  obtain ⟨rfl, rfl, contents⟩ := differ
  cases contents with
  | classDef _ _ | value _ _ | absent => cases role <;> rfl
  | routine routine docs =>
    match role with
    | .attribute | .constant => rfl
    | .callable kind => exact congrArg (Except.map _) (outlineCallable_congr isError kind docs)
  | property docs =>
    match role with
    | .attribute => exact congrArg (Except.map _) (outlineAttribute_congr isError docs)
    | .constant | .callable _ => rfl

theorem outlineMember_congr (isError : isErrorType owner = true) {first second : Member}
    (differ : first.DifferInTypeLines second) :
    outlineMember view path owner first = outlineMember view path owner second := by
  simp only [outlineMember, differ.verdict, outlineInRole_congr isError differ]

theorem Member.role_of_isDocumented {member : Member} (documented : member.content.IsDocumented) {role : Role}
    {assumed : Bool} (decided : member.verdict owner = .shown role assumed) : role ≠ .constant := by
  rintro rfl
  obtain ⟨name, memberOwner, content⟩ := member
  cases content with
  | classDef _ _ | value _ _ | absent => exact documented
  | routine | property =>
    unfold Member.verdict at decided
    dsimp only at decided
    repeat' split at decided
    all_goals cases decided

theorem outlineMember_fault (isError : isErrorType owner = true) {member : Member}
    (documented : member.content.IsDocumented) {failure : OutlineFailure}
    (failed : outlineMember view path owner member = .error failure) : failure = .repeatedField path .returned := by
  have repeats : ∀ values, Faults.ofRepeats? path .returned values = some failure →
      failure = .repeatedField path .returned := by
    intro values fault
    unfold Faults.ofRepeats? at fault
    split at fault <;> cases fault
    rfl
  have fault : (Site.classMember path owner member).fault? = some failure := by
    rw [← @Outlining.failure?_outlineMember view, failed]
    rfl
  simp only [Site.fault?] at fault
  cases decided : member.verdict owner with
  | discarded | unsupported =>
    rw [decided] at fault
    cases fault
  | shown role assumed =>
    rw [decided] at fault
    rcases role with kind | _ | _
    · -- Of the checks of a callable, the one for a repeated `:return:` is left.
      have untold : Faults.IsUntold member.name (some owner) := .inl isError
      simp only [Faults.inRole?, Faults.ofCallable?, if_pos untold, Option.or_none] at fault
      exact repeats _ fault
    · simp only [Faults.inRole?, Faults.ofAttribute?, if_pos isError, Option.none_or] at fault
      exact repeats _ fault
    · exact absurd rfl (member.role_of_isDocumented documented decided)

/-! ### A class and its module -/

theorem Scope.forall₂_visible {scope : Scope} {members others : List Member}
    (differ : List.Forall₂ Member.DifferInTypeLines members others) :
    List.Forall₂ Member.DifferInTypeLines (scope.visible members) (scope.visible others) := by
  induction differ with
  | nil => exact .nil
  | @cons member other _ _ first _ ih =>
    simp only [Scope.visible, List.filter_cons, first.name]
    split
    · exact .cons first ih
    · exact ih

theorem outlineClass_congr (isError : isErrorType name = true) (doc : Option String) {members others : List Member}
    (differ : List.Forall₂ Member.DifferInTypeLines members others) :
    outlineClass view path name doc members = outlineClass view path name doc others := by
  refine Outlining.foldlM_congr ((Scope.forall₂_visible differ).imp ?_)
  intro member other differ outline
  simp only [addClassMember, differ.name, outlineMember_congr isError differ]

theorem outline_congr (isError : isErrorType name = true) (names : List String) (mod : Module)
    (earlier later : List Member) (classOwner doc : Option String) {members others : List Member}
    (differ : List.Forall₂ Member.DifferInTypeLines members others) :
    (mod.withClass earlier later name classOwner doc members).outline view names =
      (mod.withClass earlier later name classOwner doc others).outline view names := by
  have added : ∀ outline, addRootMember view mod.name outline ⟨name, classOwner, .classDef doc members⟩ =
      addRootMember view mod.name outline ⟨name, classOwner, .classDef doc others⟩ := by
    intro outline
    simp only [addRootMember, outlineRootMember, Content.moduleRole, outlineClass_congr isError doc differ]
  rw [Module.outline_eq_map, Module.outline_eq_map]
  congr 1
  unfold Module.withClass
  dsimp only
  -- A class that is not visible is left out of both modules.
  by_cases shown : Scope.moduleBody.shows name = true
  · simp only [Scope.visible, List.filter_append, List.filter_cons_of_pos, shown, List.foldlM_append,
      List.foldlM_cons, added]
  · simp only [Scope.visible, List.filter_append, List.filter_cons, shown]
    rfl

theorem Routine.binding?_ne_constructor (routine : Routine) : routine.binding?.1 ≠ .constructor := by
  unfold Routine.binding?
  repeat' split
  all_goals simp

theorem Member.verdict_ne_constructor (isError : isErrorType owner = true) {member : Member} {kind : CallableKind}
    {assumed : Bool} (decided : member.verdict owner = .shown (.callable kind) assumed) :
    Protocol.isConstructorName member.name = false ∧ kind ≠ .constructor := by
  unfold Member.verdict at decided
  rw [if_pos isError] at decided
  split at decided
  · cases decided
  · rename_i ordinary
    refine ⟨Bool.eq_false_iff.2 ordinary, ?_⟩
    rintro rfl
    split at decided
    · cases decided
    · split at decided
      · cases decided
      · rename_i routine _
        split at decided
        · cases decided
        · injection decided with role
          injection role with kind
          exact routine.binding?_ne_constructor kind
      · split at decided <;> cases decided
      · split at decided <;> cases decided
      · split at decided <;> cases decided

theorem isUntyped_of_mem_classes {names : List String} {mod : Module} {found : Found ModuleOutline}
    {item : ClassOutline} (ran : mod.outline view names = .ok found) (listed : item ∈ found.value.classes)
    (isError : isErrorType item.name = true) : item.IsUntyped where
  callables := by
    intro method inside
    obtain ⟨member, -, named, ⟨assumed, decided⟩, made, outlined, value⟩ := exists_callable ran listed inside
    obtain ⟨ordinary, notConstructor⟩ := Member.verdict_ne_constructor isError decided
    refine ⟨notConstructor, named ▸ ordinary, ?_⟩
    rw [outlineCallable_of_errorType isError] at outlined
    dsimp only at outlined
    split at outlined <;> cases outlined
    rw [← value]
    exact ⟨rfl, rfl⟩
  attributes := by
    intro property inside
    obtain ⟨member, -, -, made, outlined, rfl⟩ := exists_property ran listed inside
    rw [outlineAttribute_of_errorType isError] at outlined
    split at outlined <;> cases outlined <;> rfl

end

/-- Lines about types have no effect in the documentation of the members of an error type. Put in or taken out, they
change neither the outline of a module that has the class nor its warnings, nor the failure of the work on it. No
callable and no property of the class is at fault for its types, and nothing is shown about types. -/
theorem error_type_ignores_type_lines {name : String} (isError : isErrorType name = true) :
    (∀ view names (mod : Module) earlier later owner doc members others,
      List.Forall₂ Member.DifferInTypeLines members others →
      (mod.withClass earlier later name owner doc members).outline view names =
        (mod.withClass earlier later name owner doc others).outline view names) ∧
    (∀ view path member failure, member.content.IsDocumented →
      outlineMember view path name member = .error failure → failure = .repeatedField path .returned) ∧
    ∀ view names (mod : Module) found, mod.outline view names = .ok found →
      ∀ item ∈ found.value.classes, item.name = name → item.IsUntyped := by
  refine ⟨?_, ?_, ?_⟩
  · intro view names mod earlier later owner doc members others differ
    exact outline_congr isError names mod earlier later owner doc differ
  · intro view path member failure documented failed
    exact outlineMember_fault isError documented failed
  · rintro view names mod found ran item listed rfl
    exact isUntyped_of_mem_classes ran listed isError

def shapeError (describeDoc sizeDoc : Option String) : List Member := [
  ⟨"__init__", none, .routine { doc := some ":type size: list[" }⟩,
  ⟨"describe", none, .routine { doc := describeDoc, signature := some ⟨[{ name := "self" }, { name := "depth" }]⟩ }⟩,
  ⟨"size", none, .property sizeDoc⟩]

def withShapeError (describeDoc sizeDoc : Option String) : Module :=
  (⟨"pkg", none, ∅, []⟩ : Module).withClass [] [] "ShapeError" none none (shapeError describeDoc sizeDoc)

def shapeErrorOutline : Found ModuleOutline where
  value := {
    name := "pkg"
    classes := [{
      name := "ShapeError"
      attributes := [⟨"size", .any, some "the size"⟩]
      methods := [⟨"describe", .bound, [], none, some "Tells\nmore."⟩] }] }

theorem shapeError_ignores_type_lines :
    isErrorType "ShapeError" = true ∧
    (withShapeError (some "Tells\nmore.") (some ":return: the size")).outline ⟨∅, "pkg"⟩ [] = .ok shapeErrorOutline ∧
    (withShapeError (some "Tells\n :type depth: list[\n:rtype: int\nmore.\n\t:rtype: str")
      (some ":rtype: list[\n:return: the size")).outline ⟨∅, "pkg"⟩ [] = .ok shapeErrorOutline := by
  have isError : isErrorType "ShapeError" = true := by decide
  have plain : (withShapeError (some "Tells\nmore.") (some ":return: the size")).outline ⟨∅, "pkg"⟩ [] =
      .ok shapeErrorOutline := by rfl
  have init : DifferInTypeLines ":type size: list[" ":type size: list[" :=
    ⟨[":type size: list[".toList], [":type size: list[".toList], by decide, by decide, by decide, by decide⟩
  have describe : DifferInTypeLines "Tells\nmore."
      "Tells\n :type depth: list[\n:rtype: int\nmore.\n\t:rtype: str" :=
    ⟨["Tells".toList, "more.".toList],
      ["Tells".toList, " :type depth: list[".toList, ":rtype: int".toList, "more.".toList, "\t:rtype: str".toList],
      by decide, by decide, by decide, by decide⟩
  have size : DifferInTypeLines ":return: the size" ":rtype: list[\n:return: the size" :=
    ⟨[":return: the size".toList], [":rtype: list[".toList, ":return: the size".toList],
      by decide, by decide, by decide, by decide⟩
  have differ : List.Forall₂ Member.DifferInTypeLines (shapeError (some "Tells\nmore.") (some ":return: the size"))
      (shapeError (some "Tells\n :type depth: list[\n:rtype: int\nmore.\n\t:rtype: str")
        (some ":rtype: list[\n:return: the size")) :=
    .cons ⟨rfl, rfl, .routine {} init⟩ <|
      .cons ⟨rfl, rfl, .routine { signature := some ⟨[{ name := "self" }, { name := "depth" }]⟩ } describe⟩ <|
      .cons ⟨rfl, rfl, .property size⟩ .nil
  have same := (error_type_ignores_type_lines isError).1 ⟨∅, "pkg"⟩ [] ⟨"pkg", none, ∅, []⟩ [] [] none none _ _ differ
  exact ⟨isError, plain, same.symm.trans plain⟩

end TypedStub
