import TypedStub.Outline
import TypedStub.Proofs.TypeTerm.Referring

/-! The documented types that a module is outlined from.

The work on an outline reads some texts and annotates it with what it read. The texts are given here
member by member, apart from that work; the texts of a member that comes too late for its name count as well.
-/

set_option autoImplicit false

namespace TypedStub

namespace TypeTexts

def ofField (declared : List Parameter) (field : ParameterField) : List String :=
  if declared.any fun parameter => parameter.name = field.name then [field.type] else []

def ofParameters (name : String) (kind : CallableKind) (signature : Option Signature)
    (fields : List ParameterField) (shape : Option ProtocolShape) : List String :=
  if shape = some .bare then []
  else
    match signature with
    | none => []
    | some signature => fields.flatMap (ofField (signature.withReceiver name kind))

def ofReturns (name : String) (kind : CallableKind) (returnTypes : List String)
    (shape : Option ProtocolShape) : List String :=
  if shape = some .bare ∨ (kind = .constructor ∧ name = Protocol.allocator) then [] else returnTypes

/-- The documentation of an error type says nothing about types. -/
def ofCallable (name : String) (kind : CallableKind) (owner : Option String) (routine : Routine) :
    List String :=
  let doc := Documentation.ofText (routine.doc.getD "")
  let shape := Protocol.shape? name
  if (owner.map isErrorType) = some true then []
  else ofParameters name kind routine.signature doc.parameters shape ++ ofReturns name kind doc.returnTypes shape

def ofAttribute (owner : String) (doc : Option String) : List String :=
  if isErrorType owner then [] else (Documentation.ofText (doc.getD "")).returnTypes

def ofConstant (member : Member) : List String :=
  if member.name = Protocol.matchArgs then [] else [member.content.typeName]

def inRole (owner : String) (member : Member) : Role → List String
  | .attribute => ofAttribute owner member.content.propertyDoc
  | .constant => ofConstant member
  | .callable kind => ofCallable member.name kind (some owner) (member.content.routine?.getD {})

def ofMember (owner : String) (member : Member) : List String :=
  match member.verdict owner with
  | .discarded | .unsupported => []
  | .shown role _ => inRole owner member role

def ofClass (name : String) (members : List Member) : List String :=
  (Scope.classBody.visible members).flatMap (ofMember name)

def ofRootMember (member : Member) : List String :=
  match member.content.moduleRole with
  | .classDef _ members => ofClass member.name members
  | .function routine => ofCallable member.name .function none routine
  | .unsupported => []

end TypeTexts

namespace Module

def typeTexts (mod : Module) : List String :=
  (Scope.moduleBody.visible mod.members).flatMap TypeTexts.ofRootMember

def visibleNames (mod : Module) : List String := (Scope.moduleBody.visible mod.members).map Member.name

end Module

/-! ### Annotations -/

def CallableOutline.annotations (item : CallableOutline) : List TypeTerm :=
  item.parameters.filterMap ParameterOutline.type ++ item.returns.toList

def ClassOutline.annotations (item : ClassOutline) : List TypeTerm :=
  item.attributes.map AttributeOutline.type
    ++ item.methods.flatMap CallableOutline.annotations
    ++ item.protocolMethods.flatMap CallableOutline.annotations
    ++ item.constants.map ConstantOutline.type

def ClassEntry.annotations : ClassEntry → List TypeTerm
  | .attribute item => [item.type]
  | .method item | .protocolMethod item => item.annotations
  | .constant item => [item.type]

def ModuleEntry.annotations : ModuleEntry → List TypeTerm
  | .classDef item => item.annotations
  | .function item => item.annotations

def ModuleOutline.annotations (item : ModuleOutline) : List TypeTerm :=
  item.classes.flatMap ClassOutline.annotations
    ++ item.functions.flatMap CallableOutline.annotations
    ++ item.metadata.map ConstantOutline.type

/-- The types that need no documentation. -/
inductive Undocumented (owners : List String) : TypeTerm → Prop where
  | any : Undocumented owners .any
  | textTuple : Undocumented owners .textTuple
  | operand {name operand : String} {operands : List String}
      (known : (Protocol.shape? name).bind ProtocolShape.operands? = some operands) (member : operand ∈ operands) :
      Undocumented owners (.name operand)
  | result {name returns : String}
      (known : (Protocol.shape? name).bind ProtocolShape.returns? = some returns) :
      Undocumented owners (.name returns)
  | owner {name : String} (member : name ∈ owners) : Undocumented owners (.name name)
  | stored (value : Literal) : Undocumented owners (.name value.typeName)

/-- The names of the types that need no documentation, whatever the module is. -/
def knownNames : List String :=
  ["typing.Any", "None", "bool", "int", "float", "str", "tuple"] ++
    Protocol.shapes.flatMap fun entry => entry.2.operands?.getD [] ++ entry.2.returns?.toList

theorem Undocumented.cases {owners : List String} {type : TypeTerm} (known : Undocumented owners type) :
    type = .textTuple ∨ (∃ name ∈ knownNames, type = .name name) ∨ ∃ name ∈ owners, type = .name name := by
  have ofShape : ∀ {name : String} {shape : ProtocolShape}, Protocol.shape? name = some shape →
      ∀ known ∈ shape.operands?.getD [] ++ shape.returns?.toList, known ∈ knownNames := by
    intro name shape is known member
    obtain ⟨entry, found, rfl⟩ := Option.map_eq_some_iff.1 is
    exact List.mem_append_right _ (List.mem_flatMap.2 ⟨entry, List.mem_of_find?_eq_some found, member⟩)
  cases known with
  | any => exact .inr (.inl ⟨"typing.Any", by decide, rfl⟩)
  | textTuple => exact .inl rfl
  | @operand _ operand operands known member =>
    obtain ⟨shape, is, taken⟩ := Option.bind_eq_some_iff.1 known
    exact .inr (.inl ⟨operand, ofShape is _ (List.mem_append_left _ (by simpa [taken] using member)), rfl⟩)
  | @result _ returns known =>
    obtain ⟨shape, is, returned⟩ := Option.bind_eq_some_iff.1 known
    exact .inr (.inl ⟨returns, ofShape is _ (List.mem_append_right _ (by simp [returned])), rfl⟩)
  | @owner name member => exact .inr (.inr ⟨name, member, rfl⟩)
  | stored value =>
    refine .inr (.inl ⟨value.typeName, List.mem_append_left _ ?_, rfl⟩)
    cases value <;> simp [Literal.typeName]

/-- A type that stands in an outline: one that needs no documentation, one that a text documents, with each
path referred to, or one of these that may be left out. -/
inductive Annotates (refer : String → Reference) (owners texts : List String) : TypeTerm → Prop where
  | undocumented {type : TypeTerm} (known : Undocumented owners type) : Annotates refer owners texts type
  | documented {text : String} {raw : TypeTerm} (member : text ∈ texts) (parsed : TypeTerm.parse text = .ok raw) :
      Annotates refer owners texts (raw.referred refer)
  | optional {type : TypeTerm} (inner : Annotates refer owners texts type) :
      Annotates refer owners texts type.optional

def Viewpoint.Needs (view : Viewpoint) (text importPath : String) : Prop :=
  ∃ raw, TypeTerm.parse text = .ok raw ∧ ∃ path ∈ raw.paths, (view.refer path).importPath? = some importPath

end TypedStub
