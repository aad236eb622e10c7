import Mathlib.Data.List.Forall2
import TypedStub.Proofs.Name
import TypedStub.Proofs.Outline.Cases

/-! The parameters that a callable with a signature shows.

They are the declared ones in their order, with the receiver in front where it is left out. The type of each is told by
the last line about it, or else by the shape of the callable. What is neither documented nor of a shape is warned about,
and so is each line about a parameter that there is none of.
-/

set_option autoImplicit false

namespace TypedStub

def receiverNames : List String := ["self", "cls"]

theorem isReceiverName_eq_true_iff {name : String} : isReceiverName name = true ↔ name ∈ receiverNames := by
  simp [isReceiverName, receiverNames]

theorem isReceiverName_eq_false_iff {name : String} : isReceiverName name = false ↔ ¬ name ∈ receiverNames := by
  rw [← isReceiverName_eq_true_iff, Bool.not_eq_true]

/-! ### What parameters are shown -/

namespace Signature

/-- A receiver that is left out. A constructor may declare the receiver of the other one instead. -/
def Omits (signature : Signature) (kind : CallableKind) (receiver : String) : Prop :=
  if kind = .constructor then ¬ receiver ∈ signature.parameters.map Parameter.name
  else ∀ name ∈ receiverNames, ¬ name ∈ signature.parameters.map Parameter.name

/-- The declared parameters with the receiver of the callable, which is added only if it is left out. -/
inductive Completed (signature : Signature) (name : String) (kind : CallableKind) : List Parameter → Prop where
  | withReceiver {receiver : String} : implicitReceiver? name kind = some receiver → signature.Omits kind receiver →
      Completed signature name kind ({ name := receiver } :: signature.parameters)
  | asDeclared : (∀ receiver, implicitReceiver? name kind = some receiver → ¬ signature.Omits kind receiver) →
      Completed signature name kind signature.parameters

end Signature

/-- The type that documentation or the shape of a callable tells of a parameter. -/
inductive Tells (view : Viewpoint) (fields : List ParameterField) (shape : Option ProtocolShape)
    (declared : List Parameter) (parameter : Parameter) : TypeTerm → Prop where
  | documented {before after : List ParameterField} {field : ParameterField} {referred : TypeTerm.Referred} :
      fields = before ++ field :: after → field.name = parameter.name →
      (∀ later ∈ after, later.name ≠ parameter.name) → TypeTerm.read view.refer field.type = .ok referred →
      Tells view fields shape declared parameter referred.type
  /-- No line is about the parameter. Receivers are no operands. -/
  | operand {i : Nat} {operands : List String} {operand returns : String} :
      (∀ field ∈ fields, field.name ≠ parameter.name) → shape = some (.fixed operands returns) →
      (declared.filter fun other => ¬ other.name ∈ receiverNames)[i]? = some parameter →
      operands[i]? = some operand → Tells view fields shape declared parameter (.name operand)

def MayBeLeftOut (fields : List ParameterField) (parameter : Parameter) : Prop :=
  parameter.default?.isSome = true ∨ ∃ field ∈ fields, field.name = parameter.name ∧ field.optional = true

instance (fields : List ParameterField) (parameter : Parameter) : Decidable (MayBeLeftOut fields parameter) :=
  inferInstanceAs (Decidable (_ ∨ _))

inductive Annotation (view : Viewpoint) (fields : List ParameterField) (shape : Option ProtocolShape)
    (declared : List Parameter) (parameter : Parameter) : Option TypeTerm → Prop where
  | receiver : parameter.name ∈ receiverNames → Annotation view fields shape declared parameter none
  | told {type : TypeTerm} : ¬ parameter.name ∈ receiverNames → Tells view fields shape declared parameter type →
      Annotation view fields shape declared parameter
        (some (if MayBeLeftOut fields parameter then .optional type else type))
  | untold : ¬ parameter.name ∈ receiverNames → (∀ type, ¬ Tells view fields shape declared parameter type) →
      Annotation view fields shape declared parameter (some .any)

structure Shows (view : Viewpoint) (fields : List ParameterField) (shape : Option ProtocolShape)
    (declared : List Parameter) (parameter : Parameter) (outline : ParameterOutline) : Prop where
  name : outline.name = parameter.name
  kind : outline.kind = parameter.kind
  default? : outline.default? = parameter.default?
  type : Annotation view fields shape declared parameter outline.type

/-- What is found of a signature: its parameters in their order, with the receiver in front if it is left out. There is
one warning for each line about a parameter that there is none of, and then one for each parameter of which nothing is
told. -/
structure ShowsSignature (view : Viewpoint) (path name : String) (kind : CallableKind) (signature : Signature)
    (fields : List ParameterField) (shape : Option ProtocolShape) (declared untold : List Parameter)
    (found : Found (List ParameterOutline)) : Prop where
  completed : signature.Completed name kind declared
  shown : List.Forall₂ (Shows view fields shape declared) declared found.value
  inOrder : untold.Sublist declared
  mem_untold_iff : ∀ parameter ∈ declared, parameter ∈ untold ↔
    ¬ parameter.name ∈ receiverNames ∧ ∀ type, ¬ Tells view fields shape declared parameter type
  warnings : found.warnings =
    ((fields.filter fun field => ¬ field.name ∈ declared.map Parameter.name).map fun field =>
      .unknownParameter path field.name) ++
    untold.map fun parameter => .unresolvedParameter path parameter.name

variable {view : Viewpoint} {path name : String} {kind : CallableKind}

/-! ### The declared parameters -/

theorem mem_receiverNames_of_implicit {receiver : String} (implicit : implicitReceiver? name kind = some receiver) :
    receiver ∈ receiverNames := by
  unfold implicitReceiver? at implicit
  repeat' split at implicit
  all_goals cases implicit
  all_goals decide

namespace Signature

variable {signature : Signature} {receiver : String} {declared : List Parameter}

theorem lacks_eq_true_iff : signature.lacks kind receiver = true ↔ signature.Omits kind receiver := by
  have noReceiver : signature.hasReceiver = false ↔
      ∀ name ∈ receiverNames, ¬ name ∈ signature.parameters.map Parameter.name := by
    simp only [hasReceiver, List.any_eq_false, Bool.not_eq_true, isReceiverName_eq_false_iff, List.mem_map, not_exists,
      not_and]
    exact ⟨fun all receiver isReceiver parameter member same => all parameter member (same ▸ isReceiver),
      fun all parameter member isReceiver => all _ isReceiver parameter member rfl⟩
  cases kind with
  | constructor => simp [lacks, Omits, find?]
  | function | static | classBound | bound | protocol => simp [lacks, Omits, noReceiver]

theorem completed_withReceiver : signature.Completed name kind (signature.withReceiver name kind) := by
  unfold withReceiver
  cases implicit : implicitReceiver? name kind with
  | none => exact .asDeclared fun receiver known => by cases implicit.symm.trans known
  | some receiver =>
    dsimp only
    split
    · rename_i lacks
      exact .withReceiver implicit (lacks_eq_true_iff.1 lacks)
    · rename_i declares
      refine .asDeclared fun other known omits => ?_
      obtain rfl : receiver = other := Option.some.inj (implicit.symm.trans known)
      exact declares (lacks_eq_true_iff.2 omits)

theorem Omits.not_mem (omits : signature.Omits kind receiver) (isReceiver : receiver ∈ receiverNames) :
    ¬ receiver ∈ signature.parameters.map Parameter.name := by
  unfold Omits at omits
  split at omits
  · exact omits
  · exact omits receiver isReceiver

theorem Completed.nodup (completed : signature.Completed name kind declared)
    (distinct : (signature.parameters.map Parameter.name).Nodup) : (declared.map Parameter.name).Nodup := by
  cases completed with
  | asDeclared => exact distinct
  | withReceiver implicit omits =>
    exact List.nodup_cons.2 ⟨omits.not_mem (mem_receiverNames_of_implicit implicit), distinct⟩

end Signature

/-! ### The lines about parameters -/

theorem readDocumentedType_eq_ok {text : String} {found : Found TypeTerm}
    (ran : readDocumentedType view path text = .ok found) :
    ∃ referred, TypeTerm.read view.refer text = .ok referred ∧ found.value = referred.type ∧ found.warnings = [] := by
  unfold readDocumentedType at ran
  cases read : TypeTerm.read view.refer text with
  | error fault => rw [read] at ran; cases ran
  | ok referred =>
    rw [read] at ran
    cases ran
    exact ⟨referred, rfl, rfl, rfl⟩

/-- The type of a name after some lines. The last line about it decides, and without one the type is the old one. -/
inductive LastDecides (view : Viewpoint) (fields : List ParameterField) (name : String) (old new : Option TypeTerm) :
    Prop where
  | line {before after : List ParameterField} {field : ParameterField} {referred : TypeTerm.Referred} :
      fields = before ++ field :: after → field.name = name → (∀ later ∈ after, later.name ≠ name) →
      TypeTerm.read view.refer field.type = .ok referred → new = some referred.type →
      LastDecides view fields name old new
  | silent : (∀ field ∈ fields, field.name ≠ name) → new = old → LastDecides view fields name old new

/-- What the lines about parameters make of what the shape tells. -/
structure FollowsFields (view : Viewpoint) (path : String) (declared : List Parameter) (start : Found Typing)
    (fields : List ParameterField) (typing : Found Typing) : Prop where
  types : ∀ name ∈ declared.map Parameter.name,
    LastDecides view fields name (start.value.types.get? name) (typing.value.types.get? name)
  optional : ∀ name ∈ declared.map Parameter.name, name ∈ typing.value.optional ↔
    name ∈ start.value.optional ∨ ∃ field ∈ fields, field.name = name ∧ field.optional = true
  warnings : typing.warnings = start.warnings ++
    (fields.filter fun field => ¬ field.name ∈ declared.map Parameter.name).map fun field =>
      .unknownParameter path field.name

section
variable {declared : List Parameter} {start typing next : Found Typing} {fields : List ParameterField}
  {field : ParameterField}

theorem any_name_iff : (declared.any fun parameter => parameter.name = name) = true ↔
    name ∈ declared.map Parameter.name := by
  simp

theorem field_eq_of_last {before others after later : List ParameterField} {field other : ParameterField}
    (parts : before ++ field :: after = others ++ other :: later) (named : field.name = name)
    (otherNamed : other.name = name) (last : ∀ following ∈ after, following.name ≠ name)
    (otherLast : ∀ following ∈ later, following.name ≠ name) : field = other := by
  rcases List.append_eq_append_iff.1 parts with ⟨extra, -, rest⟩ | ⟨extra, -, rest⟩
  · cases extra with
    | nil => exact (List.cons.inj rest).1
    | cons head tail =>
      obtain ⟨-, rfl⟩ := List.cons.inj rest
      exact absurd otherNamed (last other (by simp))
  · cases extra with
    | nil => exact (List.cons.inj rest).1.symm
    | cons head tail =>
      obtain ⟨-, rfl⟩ := List.cons.inj rest
      exact absurd named (otherLast field (by simp))

theorem followsFields_nil : FollowsFields view path declared start [] start where
  types _ _ := .silent (List.forall_mem_nil _) rfl
  optional _ _ := by simp
  warnings := by simp

theorem LastDecides.append_of_ne {old new : Option TypeTerm} (decides : LastDecides view fields name old new)
    (different : field.name ≠ name) : LastDecides view (fields ++ [field]) name old new := by
  have others : ∀ {earlier : List ParameterField}, (∀ other ∈ earlier, other.name ≠ name) →
      ∀ other ∈ earlier ++ [field], other.name ≠ name := by
    intro earlier all other member
    rcases List.mem_append.1 member with inside | last
    · exact all other inside
    · rwa [List.mem_singleton.1 last]
  cases decides with
  | @line before after last referred parts named all read known =>
    exact .line (by rw [parts, List.append_assoc, List.cons_append]) named (others all) read known
  | silent all known => exact .silent (others all) known

theorem FollowsFields.addField (follows : FollowsFields view path declared start fields typing)
    (ran : Typing.addField view path declared typing field = .ok next) :
    FollowsFields view path declared start (fields ++ [field]) next := by
  obtain ⟨isDeclared, found, read, rfl⟩ | ⟨notDeclared, rfl⟩ := addField_cases ran
  · rw [any_name_iff] at isDeclared
    obtain ⟨referred, read, value, silent⟩ := readDocumentedType_eq_ok read
    -- The line becomes the last one of its parameter and leaves the others as they are.
    constructor
    · intro name known
      change LastDecides _ _ _ _ ((typing.value.types.insert field.name found.value).get? name)
      rw [NameMap.get?_insert]
      by_cases same : field.name = name
      · rw [if_pos same.symm, value]
        exact .line rfl same (List.forall_mem_nil _) read rfl
      · rw [if_neg (Ne.symm same)]
        exact (follows.types name known).append_of_ne same
    · intro name known
      have step : name ∈ (if field.optional then typing.value.optional.insert field.name else typing.value.optional) ↔
          name ∈ typing.value.optional ∨ field.name = name ∧ field.optional = true := by
        cases field.optional <;> simp [or_comm, eq_comm]
      exact step.trans (by rw [follows.optional name known]; simp [or_and_right, exists_or, or_assoc])
    · have dropped : (fields ++ [field]).filter (fun field => ¬ field.name ∈ declared.map Parameter.name) =
          fields.filter fun field => ¬ field.name ∈ declared.map Parameter.name := by
        rw [List.filter_append, List.filter_cons_of_neg (by simpa using isDeclared), List.filter_nil, List.append_nil]
      rw [dropped, ← follows.warnings]
      change typing.warnings ++ found.warnings = _
      rw [silent, List.append_nil]
  · rw [any_name_iff] at notDeclared
    have different : ∀ {name}, name ∈ declared.map Parameter.name → field.name ≠ name :=
      fun known same => notDeclared (same ▸ known)
    -- The line is about none of the parameters and is only warned about.
    constructor
    · intro name known
      exact (follows.types name known).append_of_ne (different known)
    · intro name known
      exact (follows.optional name known).trans (by simp [or_and_right, exists_or, different known])
    · have kept : (fields ++ [field]).filter (fun field => ¬ field.name ∈ declared.map Parameter.name) =
          fields.filter (fun field => ¬ field.name ∈ declared.map Parameter.name) ++ [field] := by
        rw [List.filter_append, List.filter_cons_of_pos (by simpa using notDeclared), List.filter_nil]
      rw [kept, List.map_append, ← List.append_assoc, ← follows.warnings]
      rfl

theorem followsFields_of_foldlM (ran : fields.foldlM (Typing.addField view path declared) start = .ok typing) :
    FollowsFields view path declared start fields typing := by
  have all := Outlining.foldlM_ok (FollowsFields view path declared start) (fun field => [field])
    (fun _ _ _ _ _ follows stepped => follows.addField stepped) followsFields_nil ran
  simpa using all

end

/-! ### The shape -/

section
variable {declared : List Parameter} {parameter : Parameter} {shape : Option ProtocolShape} {type : TypeTerm}

theorem get?_ofShape_iff (distinct : (declared.map Parameter.name).Nodup) (member : parameter ∈ declared) :
    (Typing.ofShape shape declared).types.get? parameter.name = some type ↔
      ∃ (i : Nat) (operands : List String) (operand returns : String), shape = some (.fixed operands returns) ∧
        (declared.filter fun other => ¬ other.name ∈ receiverNames)[i]? = some parameter ∧
        operands[i]? = some operand ∧ type = .name operand := by
  have same : (declared.filter fun other => !isReceiverName other.name) =
      declared.filter fun other => ¬ other.name ∈ receiverNames := by
    refine List.filter_congr fun other _ => ?_
    cases isReceiver : isReceiverName other.name with
    | true => simp [isReceiverName_eq_true_iff.1 isReceiver]
    | false => simp [isReceiverName_eq_false_iff.1 isReceiver]
  unfold Typing.ofShape
  dsimp only
  rw [same]
  generalize filtered : (declared.filter fun other => ¬ other.name ∈ receiverNames) = others
  have inside : others.Sublist declared := filtered ▸ List.filter_sublist
  have names : (((others.map Parameter.name).zip
      (((shape.bind ProtocolShape.operands?).getD []).map TypeTerm.name)).map Prod.fst).Nodup :=
    (distinct.sublist (inside.map Parameter.name)).sublist (map_fst_zip_sublist _ _)
  rw [NameMap.get?_ofList_eq_some_iff names, List.mem_iff_getElem?]
  simp only [List.getElem?_zip_eq_some]
  constructor
  · rintro ⟨i, named, typed⟩
    rw [List.getElem?_map, Option.map_eq_some_iff] at named typed
    obtain ⟨other, listed, sameName⟩ := named
    obtain ⟨operand, known, rfl⟩ := typed
    -- Only the parameter itself has its name.
    obtain rfl : other = parameter :=
      List.inj_on_of_nodup_map distinct (inside.subset (List.mem_of_getElem? listed)) member sameName
    match shape with
    | some (.fixed operands returns) => exact ⟨i, operands, operand, returns, rfl, listed, known, rfl⟩
    | none | some .hidden | some .bare => cases known
  · rintro ⟨i, operands, operand, returns, rfl, listed, known, rfl⟩
    refine ⟨i, ?_, ?_⟩
    · rw [List.getElem?_map, listed]
      rfl
    · rw [List.getElem?_map]
      exact congrArg (Option.map TypeTerm.name) known

end

/-! ### The annotations -/

namespace Typing

def annotate (typing : Typing) (parameter : Parameter) : ParameterOutline where
  name := parameter.name
  type := if isReceiverName parameter.name then none else some ((typing.type? parameter).getD .any)
  default? := parameter.default?
  kind := parameter.kind

def leavesOpen (typing : Typing) (parameter : Parameter) : Bool :=
  !isReceiverName parameter.name && (typing.type? parameter).isNone

theorem outlineAll_eq {typing : Typing} {seen : List String} {parameters : List Parameter}
    (distinct : (parameters.map Parameter.name).Nodup) (unseen : ∀ name ∈ parameters.map Parameter.name, ¬ name ∈ seen) :
    typing.outlineAll path seen parameters =
      { value := parameters.map typing.annotate
        warnings := (parameters.filter typing.leavesOpen).map fun parameter =>
          .unresolvedParameter path parameter.name } := by
  induction parameters generalizing seen with
  | nil => rfl
  | cons parameter rest ih =>
    obtain ⟨fresh, distinct⟩ := List.nodup_cons.1 distinct
    have first : ¬ parameter.name ∈ seen := unseen _ List.mem_cons_self
    have later : ∀ name ∈ rest.map Parameter.name, ¬ name ∈ parameter.name :: seen := by
      intro name member among
      rcases List.mem_cons.1 among with rfl | among
      · exact fresh member
      · exact unseen name (List.mem_cons_of_mem _ member) among
    unfold outlineAll
    rw [ih distinct later]
    dsimp only
    rw [if_neg first, List.map_cons, List.filter_cons]
    cases isReceiver : isReceiverName parameter.name with
    | true => simp [annotate, leavesOpen, isReceiver]
    | false => cases typed : typing.type? parameter <;> simp [annotate, leavesOpen, isReceiver, typed]

end Typing

section
variable {signature : Signature} {fields : List ParameterField} {shape : Option ProtocolShape}
  {declared : List Parameter} {parameter : Parameter} {typing : Found Typing}

theorem get?_eq_some_iff_tells (distinct : (declared.map Parameter.name).Nodup) (member : parameter ∈ declared)
    (follows : FollowsFields view path declared { value := .ofShape shape declared } fields typing) (type : TypeTerm) :
    typing.value.types.get? parameter.name = some type ↔ Tells view fields shape declared parameter type := by
  have isDeclared : parameter.name ∈ declared.map Parameter.name := List.mem_map_of_mem member
  -- The last line about the parameter decides, and without such a line the shape does.
  cases follows.types _ isDeclared with
  | @line before after field referred parts named last read known =>
    rw [known]
    constructor
    · rintro ⟨⟩
      exact .documented parts named last read
    · intro tells
      cases tells with
      | documented otherParts otherNamed otherLast otherRead =>
        obtain rfl := field_eq_of_last (parts.symm.trans otherParts) named otherNamed last otherLast
        cases read.symm.trans otherRead
        rfl
      | operand silent => exact absurd named (silent field (by simp [parts]))
  | silent silent known =>
    rw [known, get?_ofShape_iff distinct member]
    constructor
    · rintro ⟨i, operands, operand, returns, fixed, listed, typed, rfl⟩
      exact .operand silent fixed listed typed
    · intro tells
      cases tells with
      | documented parts named => exact absurd named (silent _ (by simp [parts]))
      | operand _ fixed listed typed => exact ⟨_, _, _, _, fixed, listed, typed, rfl⟩

theorem annotation_of_follows (distinct : (declared.map Parameter.name).Nodup) (member : parameter ∈ declared)
    (follows : FollowsFields view path declared { value := .ofShape shape declared } fields typing) :
    Annotation view fields shape declared parameter (typing.value.annotate parameter).type := by
  have told := get?_eq_some_iff_tells distinct member follows
  unfold Typing.annotate
  dsimp only
  cases isReceiver : isReceiverName parameter.name with
  | true => exact .receiver (isReceiverName_eq_true_iff.1 isReceiver)
  | false =>
    have ordinary := isReceiverName_eq_false_iff.1 isReceiver
    rw [if_neg Bool.false_ne_true]
    unfold Typing.type?
    cases typed : typing.value.types.get? parameter.name with
    | none => exact .untold ordinary fun type tells => by cases typed.symm.trans ((told type).2 tells)
    | some type =>
      have leftOut : parameter.name ∈ typing.value.optional ∨ parameter.default?.isSome ↔
          MayBeLeftOut fields parameter := by
        rw [follows.optional _ (List.mem_map_of_mem member), or_comm]
        exact or_congr_right (or_iff_right (NameSet.not_mem_empty _))
      simp only [Option.map_some, Option.getD_some, leftOut]
      exact .told ordinary ((told type).1 typed)

theorem leavesOpen_iff (distinct : (declared.map Parameter.name).Nodup) (member : parameter ∈ declared)
    (follows : FollowsFields view path declared { value := .ofShape shape declared } fields typing) :
    typing.value.leavesOpen parameter = true ↔
      ¬ parameter.name ∈ receiverNames ∧ ∀ type, ¬ Tells view fields shape declared parameter type := by
  have told := get?_eq_some_iff_tells distinct member follows
  have untyped : (typing.value.type? parameter).isNone = true ↔
      ∀ type, ¬ Tells view fields shape declared parameter type := by
    unfold Typing.type?
    rw [Option.isNone_iff_eq_none, Option.map_eq_none_iff, Option.eq_none_iff_forall_ne_some]
    exact forall_congr' fun type => not_congr (told type)
  rw [Typing.leavesOpen, Bool.and_eq_true, untyped, Bool.not_eq_true', isReceiverName_eq_false_iff]

/-- Of a callable whose parameters have different names exactly the parameters are shown, each annotated with what is
told of it. -/
theorem outlineParameters_exact {found : Found (List ParameterOutline)}
    (distinct : (signature.parameters.map Parameter.name).Nodup) (shaped : shape ≠ some .bare)
    (ran : outlineParameters view path name kind (some signature) fields shape = .ok found) :
    ∃ declared untold, ShowsSignature view path name kind signature fields shape declared untold found := by
  obtain ⟨bare, -⟩ | ⟨-, unsigned, -⟩ | ⟨-, declared, typing, same, folded, rfl⟩ := outlineParameters_cases ran
  · exact absurd bare shaped
  · cases unsigned
  · obtain rfl : signature.withReceiver name kind = declared := Option.some.inj same
    have completed := @Signature.completed_withReceiver name kind signature
    have follows := followsFields_of_foldlM folded
    have names := completed.nodup distinct
    rw [Typing.outlineAll_eq names fun _ _ => List.not_mem_nil]
    refine ⟨_, (signature.withReceiver name kind).filter typing.value.leavesOpen, completed, ?_, List.filter_sublist,
      ?_, congrArg (· ++ _) follows.warnings⟩
    · change List.Forall₂ _ _ (List.map _ _)
      rw [List.forall₂_map_right_iff, List.forall₂_same]
      exact fun parameter member => ⟨rfl, rfl, rfl, annotation_of_follows names member follows⟩
    · intro parameter member
      rw [List.mem_filter, and_iff_right member]
      exact leavesOpen_iff names member follows

end

def setItem : Signature := ⟨[{ name := "key" }, { name := "item", default? := some .null }, { name := "force" }]⟩

def setItemFields : List ParameterField :=
  [⟨"item", "str", true⟩, ⟨"value", "int", false⟩, ⟨"item", "int or str", false⟩]

def setItemShown : Found (List ParameterOutline) where
  value := [{ name := "self", type := none }, { name := "key", type := some .any },
    { name := "item", type := some (.optional (.union [.name "int", .name "str"])), default? := some .null },
    { name := "force", type := some .any }]
  warnings := [.unknownParameter "pkg.Table.__setitem__" "value", .unresolvedParameter "pkg.Table.__setitem__" "force"]

theorem setItem_shown :
    (setItem.parameters.map Parameter.name).Nodup ∧ Protocol.shape? "__setitem__" ≠ some .bare ∧
    outlineParameters ⟨∅, "pkg"⟩ "pkg.Table.__setitem__" "__setitem__" .protocol (some setItem) setItemFields
      (Protocol.shape? "__setitem__") = .ok setItemShown ∧
    ∃ declared untold, ShowsSignature ⟨∅, "pkg"⟩ "pkg.Table.__setitem__" "__setitem__" .protocol setItem setItemFields
      (Protocol.shape? "__setitem__") declared untold setItemShown := by
  have distinct : (setItem.parameters.map Parameter.name).Nodup := by decide
  have shaped : Protocol.shape? "__setitem__" ≠ some .bare := by decide
  have ran : outlineParameters ⟨∅, "pkg"⟩ "pkg.Table.__setitem__" "__setitem__" .protocol (some setItem) setItemFields
      (Protocol.shape? "__setitem__") = .ok setItemShown := by with_unfolding_all rfl
  exact ⟨distinct, shaped, ran, outlineParameters_exact distinct shaped ran⟩

end TypedStub
