import TypedStub.Outline
import TypedStub.Proofs.Outline.Cases
import TypedStub.Proofs.TypeTerm.Referring

/-! The faults of members.

A module has no outline if a member that is shown is at fault. What is at fault is told here for each member
by itself: it depends neither on the aliases nor on the members before it. A second member of a name is looked
at like the first.
-/

set_option autoImplicit false

namespace TypedStub

namespace Faults

def ofType? (path text : String) : Option OutlineFailure :=
  match TypeTerm.parse text with
  | .ok _ => none
  | .error fault => some (.badType path fault)

def ofRepeats? (path : String) (field : SingleField) (values : List String) : Option OutlineFailure :=
  if 1 < values.length then some (.repeatedField path field) else none

def ofReturnTypes? (path : String) (returnTypes : List String) : Option OutlineFailure :=
  (ofRepeats? path .returnType returnTypes).or (returnTypes.findSome? (ofType? path))

/-- The first type of a declared parameter, or of the receiver, that cannot be read. Fields of other names
are not read. -/
def ofParameters? (path name : String) (kind : CallableKind) (signature : Option Signature)
    (fields : List ParameterField) : Option OutlineFailure :=
  signature.bind fun signature =>
    let declared := (signature.withReceiver name kind).map Parameter.name
    fields.findSome? fun field => if field.name ∈ declared then ofType? path field.type else none

/-- Nothing is told about the types of an error type's callables, or of arithmetic operators. -/
def IsUntold (name : String) (owner : Option String) : Prop :=
  owner.any isErrorType ∨ Protocol.shape? name = some .bare

instance (name : String) (owner : Option String) : Decidable (IsUntold name owner) :=
  inferInstanceAs (Decidable (_ ∨ _))

def ofCallable? (path name : String) (kind : CallableKind) (owner : Option String) (routine : Routine) :
    Option OutlineFailure :=
  let doc := Documentation.ofText (routine.doc.getD "")
  (ofRepeats? path .returned doc.returned).or <|
    if IsUntold name owner then none
    else (ofParameters? path name kind routine.signature doc.parameters).or <|
      if kind = .constructor ∧ name = Protocol.allocator then none else ofReturnTypes? path doc.returnTypes

def ofAttribute? (path owner : String) (doc : Option String) : Option OutlineFailure :=
  let doc := Documentation.ofText (doc.getD "")
  (if isErrorType owner then none else ofReturnTypes? path doc.returnTypes).or
    (ofRepeats? path .returned doc.returned)

def ofConstant? (path : String) (member : Member) : Option OutlineFailure :=
  if member.name = Protocol.matchArgs then none else ofType? path member.content.typeName

def inRole? (path owner : String) (member : Member) : Role → Option OutlineFailure
  | .attribute => ofAttribute? path owner member.content.propertyDoc
  | .constant => ofConstant? path member
  | .callable kind => ofCallable? path member.name kind (some owner) (member.content.routine?.getD {})

end Faults

inductive Site where
  | function (path name : String) (routine : Routine)
  | classMember (path owner : String) (member : Member)

/-- What is wrong at a site. Members that are not shown cannot be at fault. -/
def Site.fault? : Site → Option OutlineFailure
  | .function path name routine => Faults.ofCallable? path name .function none routine
  | .classMember path owner member =>
    match member.verdict owner with
    | .shown role _ => Faults.inRole? path owner member role
    | .discarded | .unsupported => none

def Member.sites (path : String) (member : Member) : List Site :=
  match member.content.moduleRole with
  | .classDef _ members => (Scope.classBody.visible members).map fun inner =>
      .classMember (path ++ "." ++ inner.name) member.name inner
  | .function routine => [.function path member.name routine]
  | .unsupported => []

def Module.sites (mod : Module) : List Site :=
  (Scope.moduleBody.visible mod.members).flatMap fun member => member.sites (mod.name ++ "." ++ member.name)

namespace Outlining

variable {view : Viewpoint} {path name : String}

theorem failure?_readDocumentedType {text : String} :
    failure? (readDocumentedType view path text) = Faults.ofType? path text := by
  unfold readDocumentedType Faults.ofType?
  rw [TypeTerm.read_eq]
  cases TypeTerm.parse text <;> rfl

theorem failure?_addField {declared : List Parameter} {typing : Found Typing} {field : ParameterField} :
    failure? (Typing.addField view path declared typing field) =
      if field.name ∈ declared.map Parameter.name then Faults.ofType? path field.type else none := by
  have listed : (declared.any fun parameter => parameter.name = field.name) = true ↔
      field.name ∈ declared.map Parameter.name := by simp
  unfold Typing.addField
  by_cases known : field.name ∈ declared.map Parameter.name
  · rw [if_pos (listed.2 known), if_pos known, failure?_map, failure?_readDocumentedType]
  · rw [if_neg fun any => known (listed.1 any), if_neg known]
    rfl

theorem failure?_outlineParameters {kind : CallableKind} {signature : Option Signature}
    {fields : List ParameterField} {shape : Option ProtocolShape} (told : shape ≠ some .bare) :
    failure? (outlineParameters view path name kind signature fields shape) =
      Faults.ofParameters? path name kind signature fields := by
  unfold outlineParameters
  rw [if_neg told]
  cases signature with
  | none => rfl
  | some signature =>
    exact failure?_bind_pure.trans (failure?_foldlM fun _ _ _ => failure?_addField)

/-- The only return type of a callable or an attribute is read, and a second one is refused. -/
theorem failure?_onlyReturnType {α : Type} {returnTypes : List String} {unknown : α} {read : String → Outlining α}
    (reads : ∀ type, failure? (read type) = Faults.ofType? path type) :
    failure? (match returnTypes with
      | [] => .ok unknown
      | [type] => read type
      | _ => .error (.repeatedField path .returnType)) = Faults.ofReturnTypes? path returnTypes := by
  match returnTypes with
  | [] => rfl
  | [type] =>
    rw [reads, Faults.ofReturnTypes?, Faults.ofRepeats?, if_neg (by simp), Option.none_or, List.findSome?_singleton]
  | _ :: _ :: _ => simp [Faults.ofReturnTypes?, Faults.ofRepeats?, failure?]

theorem failure?_outlineReturns {kind : CallableKind} {owner : Option String} {returnTypes : List String}
    {shape : Option ProtocolShape} (told : shape ≠ some .bare) :
    failure? (outlineReturns view path name kind owner returnTypes shape) =
      if kind = .constructor ∧ name = Protocol.allocator then none else Faults.ofReturnTypes? path returnTypes := by
  unfold outlineReturns
  rw [if_neg told]
  by_cases allocates : kind = .constructor ∧ name = Protocol.allocator
  · rw [if_pos allocates, if_pos allocates]
    rfl
  · rw [if_neg allocates, if_neg allocates]
    exact failure?_onlyReturnType fun _ => failure?_map.trans failure?_readDocumentedType

theorem failure?_outlineCallable {kind : CallableKind} {owner : Option String} {routine : Routine} :
    failure? (outlineCallable view path name kind owner routine) =
      Faults.ofCallable? path name kind owner routine := by
  unfold outlineCallable Faults.ofCallable?
  dsimp only
  generalize Documentation.ofText (routine.doc.getD "") = doc
  have error_iff : owner.map isErrorType = some true ↔ owner.any isErrorType = true := by cases owner <;> simp
  -- The checks come in the order of the work: repeated fields, error types, operators that tell nothing.
  by_cases repeated : 1 < doc.returned.length
  · rw [Faults.ofRepeats?, if_pos repeated, if_pos repeated]
    rfl
  · rw [Faults.ofRepeats?, if_neg repeated, if_neg repeated, Option.none_or]
    by_cases isError : owner.map isErrorType = some true
    · rw [if_pos isError, if_pos (.inl (error_iff.1 isError))]
      rfl
    · rw [if_neg isError]
      by_cases bare : Protocol.shape? name = some .bare
      · rw [if_pos (.inr bare), bare]
        rfl
      · have told : ¬ Faults.IsUntold name owner :=
          not_or.2 ⟨fun any => isError (error_iff.2 any), bare⟩
        rw [if_neg told, ← @failure?_outlineParameters view path name kind _ _ _ bare,
          ← @failure?_outlineReturns view path name kind owner _ _ bare]
        exact failure?_bind fun _ _ => failure?_bind_pure

theorem failure?_attributeType {owner : String} {returnTypes : List String} :
    failure? (attributeType view path owner returnTypes) =
      if isErrorType owner then none else Faults.ofReturnTypes? path returnTypes := by
  unfold attributeType
  split
  · rfl
  · exact failure?_onlyReturnType fun _ => failure?_readDocumentedType

theorem failure?_outlineAttribute {owner : String} {doc : Option String} :
    failure? (outlineAttribute view path owner name doc) = Faults.ofAttribute? path owner doc := by
  unfold outlineAttribute Faults.ofAttribute?
  dsimp only
  generalize Documentation.ofText (doc.getD "") = doc
  rw [← @failure?_attributeType view]
  apply failure?_bind
  intro type _
  match doc.returned with
  | [] | [_] => rfl
  | _ :: _ :: _ => simp [Faults.ofRepeats?]; rfl

theorem failure?_outlineConstant {member : Member} :
    failure? (outlineConstant view path member) = Faults.ofConstant? path member := by
  unfold outlineConstant Faults.ofConstant?
  split
  · rfl
  · rw [failure?_map, failure?_readDocumentedType]

theorem failure?_outlineInRole {owner : String} {member : Member} {role : Role} :
    failure? (outlineInRole view path owner member role) = Faults.inRole? path owner member role := by
  match role with
  | .attribute => exact failure?_map.trans failure?_outlineAttribute
  | .constant => exact failure?_map.trans failure?_outlineConstant
  | .callable kind => exact failure?_map.trans failure?_outlineCallable

theorem failure?_outlineMember {owner : String} {member : Member} :
    failure? (outlineMember view path owner member) = (Site.classMember path owner member).fault? := by
  simp only [outlineMember, Site.fault?]
  cases member.verdict owner with
  | discarded | unsupported => rfl
  | shown role assumed => exact failure?_map.trans failure?_outlineInRole

/-! ### Classes and modules -/

theorem failure?_outlineRootMember {member : Member} :
    failure? (outlineRootMember view path member) = (member.sites path).findSome? Site.fault? := by
  unfold outlineRootMember Member.sites
  cases member.content.moduleRole with
  | classDef doc members =>
    have each : ∀ outline, ∀ inner ∈ Scope.classBody.visible members,
        failure? (addClassMember view path member.name outline inner) =
          (Site.fault? ∘ fun inner => .classMember (path ++ "." ++ inner.name) member.name inner) inner :=
      fun _ _ _ => failure?_map.trans failure?_outlineMember
    rw [List.findSome?_map]
    exact failure?_map.trans (failure?_foldlM each)
  | function routine =>
    simp only [List.findSome?_singleton]
    exact failure?_map.trans failure?_outlineCallable
  | unsupported => rfl

theorem failure?_outline {names : List String} {mod : Module} :
    failure? (mod.outline view names) = mod.sites.findSome? Site.fault? := by
  have each : ∀ outline, ∀ member ∈ Scope.moduleBody.visible mod.members,
      failure? (addRootMember view mod.name outline member) =
        (member.sites (mod.name ++ "." ++ member.name)).findSome? Site.fault? :=
    fun _ _ _ => failure?_map.trans failure?_outlineRootMember
  rw [Module.sites, findSome?_flatMap]
  exact failure?_bind_pure.trans (failure?_foldlM each)

end Outlining

/-- A module has no outline exactly if one of its sites is at fault, and what ends the work is the fault of the
first such site. -/
theorem outline_fails_at_first_fault (view : Viewpoint) (names : List String) (mod : Module) :
    ((∃ failure, mod.outline view names = .error failure) ↔ ∃ site ∈ mod.sites, site.fault?.isSome) ∧
    ∀ failure, mod.outline view names = .error failure ↔
      ∃ before site after, mod.sites = before ++ site :: after ∧
        site.fault? = some failure ∧ ∀ earlier ∈ before, earlier.fault? = none := by
  have first : ∀ failure, mod.outline view names = .error failure ↔ mod.sites.findSome? Site.fault? = some failure := by
    intro failure
    rw [← Outlining.failure?_outline, Outlining.failure?_eq_some_iff]
  constructor
  · rw [← List.findSome?_isSome_iff, Option.isSome_iff_exists]
    exact exists_congr first
  · intro failure
    rw [first, List.findSome?_eq_some_iff]

end TypedStub
